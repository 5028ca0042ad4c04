import Junjo.React.UseMembers

/-!
# `useInvitations`

The list of a group's invitations: which of them a status shows, and what an event does to them.
-/

namespace Junjo.React

inductive UseInvitationsStatus where
  | pending
  | used
  | expired
  | all
deriving DecidableEq

def matchInvitation (inv : ListedInvitation) (status : UseInvitationsStatus) (now : ℤ) : Bool :=
  let used := inv.usedAt.isSome
  let expired := inv.expiresAt.any fun expiresAt => expiresAt ≤ now
  match status with
  | .all => true
  | .pending => !used && !expired
  | .used => used
  | .expired => !used && expired

/-- Replace the first row with an id. -/
def replaceFirst (inv : ListedInvitation) : List ListedInvitation → List ListedInvitation
  | [] => []
  | i :: invitations =>
    if i.id = inv.id then inv :: invitations else i :: replaceFirst inv invitations

/-- `applyEvent` of the invitation list. -/
def applyInvitationEvent (event : JunjoEvent) (matching : ListedInvitation → Bool)
    (invitations : List ListedInvitation) : List ListedInvitation :=
  match event with
  | .memberInvited inv =>
    if !matching inv then invitations
    else if invitations.any fun i => i.id = inv.id then replaceFirst inv invitations
    else invitations ++ [inv]
  | .memberJoined userId _ occurredAt =>
    invitations.flatMap fun inv =>
      if inv.targetUserId = some userId ∧ inv.usedAt = none then
        let updated := { inv with usedAt := some occurredAt, usedBy := some userId }
        if matching updated then [updated] else []
      else [inv]
  | _ => invitations

def useInvitations : ListHook ListedInvitation JunjoEvent Text where
  key := ListedInvitation.id
  applyEvent := applyInvitationEvent

end Junjo.React

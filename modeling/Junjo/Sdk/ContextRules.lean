import Junjo.Sdk.Context
import Junjo.Permissions.ContextRules

/-!
# The rules for contexts in the Java SDK

`Context.of` and `ContextInheritance.of` apply the server's rules. The search for cycles and long
chains keeps its path on a stack of its own.
-/

namespace Junjo.Sdk

namespace Context

/-- A text in quotes, for a message. -/
def quoted (s : Text) : Text := text "\"" ++ s ++ text "\""

def keyProblem (key : Text) : Option Text :=
  if matchesContextKey key then none
  else some (text "context key " ++ jsonString key ++ text " must match "
    ++ permissionContextKeyPattern)

def valueProblem (value : Text) : Option Text :=
  if value.isEmpty || permissionContextValueMaxLength < value.length then
    some (text "context value " ++ jsonString value ++ text " must be 1 to 64 characters")
  else if hasControlCharacter value then
    some (text "context value " ++ jsonString value ++ text " must not contain control characters")
  else none

lemma valueProblem_eq (value : Text) :
    valueProblem value = contextValueProblem value := by
  unfold valueProblem contextValueProblem
  rw [jsonString_eq]
  cases value with
  | nil => rfl
  | cons c value => simp

lemma keyProblem_eq (key : Text) : keyProblem key = contextKeyProblem key := by
  unfold keyProblem contextKeyProblem
  rw [jsonString_eq]

/-- The reason a context breaks the write rules. -/
def problem (values : Dict Text Text) : Option Text :=
  if maxPermissionContextKeys < values.size then some (text "context may have at most 2 keys")
  else values.sortedEntries.findSome? fun e =>
    match keyProblem e.1 with
    | some problem => some problem
    | none => valueProblem e.2

/-- A context from pairs, or the reason they are refused. -/
def of (values : Dict Text Text) : Except Text Context :=
  match problem values with
  | some problem => .error problem
  | none => .ok (if values.entries.isEmpty then global else ofPairs values)

end Context

namespace ContextInheritance

/-- The state of the search: the values that are done, their longest chains, and the path to the
value on top with the index of the parent that each value on it goes on with, the top first. -/
structure Search where
  done : Dict Text Bool
  longest : Dict Text ℕ
  frames : List (Text × ℕ)

def Search.path (s : Search) : List Text := (s.frames.map Prod.fst).reverse

/-- One round of the loop over the path. -/
def searchStep (inherit : Dict Text (List Text)) (s : Search) : Except Text Search :=
  match s.frames with
  | [] => .ok s
  | (value, idx) :: below =>
    let parents := (inherit.get? value).getD []
    match parents[idx]? with
    | some parent =>
      let moved := { s with frames := (value, idx + 1) :: below }
      if s.done.has parent then .ok moved
      else if parent ∈ s.path then
        .error (text "inheritance has a cycle: "
          ++ ((s.path.drop (s.path.idxOf parent)).flatMap fun v => Context.quoted v ++ text " -> ")
          ++ Context.quoted parent)
      else .ok { moved with frames := (parent, 0) :: moved.frames }
    | none =>
      let best := parents.foldl (fun best parent => max best ((s.longest.get? parent).getD 0 + 1)) 0
      if maxContextInheritDepth < best then
        .error (text "inheritance is deeper than 16 steps")
      else .ok ⟨s.done.set value true, s.longest.set value best, below⟩

/-- The loop while there is a path. `fuel` bounds its rounds. -/
def search (inherit : Dict Text (List Text)) : ℕ → Search → Except Text Search
  | 0, _ => .error []
  | fuel + 1, s =>
    if s.frames.isEmpty then .ok s
    else searchStep inherit s >>= search inherit fuel

/-- The rounds that a search can take: each value is entered and left once, and goes over its
parents once. -/
def searchRounds (inherit : Dict Text (List Text)) : ℕ :=
  ((namedValues inherit).map fun v => ((inherit.get? v).getD []).length + 2).sum

/-- The search from one value, unless it is done. -/
def searchFrom (inherit : Dict Text (List Text)) (s : Search) (start : Text) :
    Except Text Search :=
  if s.done.has start then .ok s
  else search inherit (searchRounds inherit + 1) { s with frames := [(start, 0)] }

/-- The reason a table of parents is refused: a cycle, or a chain longer than the limit. -/
def shapeProblem (inherit : Dict Text (List Text)) : Option Text :=
  match inherit.keys.foldlM (searchFrom inherit) ⟨Dict.empty, Dict.empty, []⟩ with
  | .error problem => some problem
  | .ok _ => none

def normalizeParent (folds : List Text) (parent : Text) : Except Text (List Text) :=
  match Context.valueProblem parent with
  | some problem => .error problem
  | none =>
    let f := foldContextValue parent
    .ok (if f ∈ folds then folds else folds ++ [f])

def normalizeValue (key : Text) (values : Dict Text (List Text)) (e : Text × List Text) :
    Except Text (Dict Text (List Text)) :=
  match Context.valueProblem e.1 with
  | some problem => .error problem
  | none =>
    let folded := foldContextValue e.1
    if values.has folded then
      .error (text "context key " ++ Context.quoted key ++ text " lists value "
        ++ Context.quoted folded ++ text " twice ignoring case")
    else if maxContextInheritParents < e.2.length then
      .error (text "context value " ++ Context.quoted folded ++ text " may have at most 8 parents")
    else do
      let folds ← e.2.foldlM normalizeParent []
      pure (values.set folded folds)

def normalizeKey (out : Junjo.ContextInheritance) (e : Text × Dict Text (List Text)) :
    Except Text Junjo.ContextInheritance :=
  match Context.keyProblem e.1 with
  | some problem => .error problem
  | none =>
    if maxContextInheritValues < e.2.size then
      .error (text "context key " ++ Context.quoted e.1 ++ text " may list at most 256 values")
    else do
      let values ← e.2.entries.foldlM (normalizeValue e.1) Dict.empty
      match shapeProblem values with
      | some problem => .error (text "context key " ++ Context.quoted e.1 ++ text ": " ++ problem)
      | none => pure (out.set e.1 values)

def normalize (raw : Junjo.ContextInheritance) : Except Text Junjo.ContextInheritance :=
  if maxContextInheritKeys < raw.size then
    .error (text "at most 32 context keys may declare inheritance")
  else raw.sortedEntries.foldlM normalizeKey Dict.empty

/-- The inheritance from context key to `value -> parents`, or the reason it is refused. -/
def of (raw : Junjo.ContextInheritance) : Except Text ContextInheritance := do
  let value ← normalize raw
  pure ⟨value⟩

end ContextInheritance

end Junjo.Sdk

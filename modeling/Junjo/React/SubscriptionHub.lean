import Junjo.Core.Text
import Junjo.React.StreamHub

/-!
# The event streams of a React tree's groups
-/

namespace Junjo.React

/-- What a listener of a group's stream is told. -/
inductive HubSignal (ε : Type*) where
  | onEvent (event : ε)
  | onError
  | onClose
deriving DecidableEq

def HubSignal.terminal {ε : Type*} : HubSignal ε → Bool
  | .onEvent _ => false
  | .onError | .onClose => true

abbrev SubscriptionHub (ε : Type*) := Hub Text Unit (HubSignal ε)

inductive SubscriptionEvent (ε : Type*) where
  | subscribe (groupId : Text)
  | unsubscribe (listener : ℕ)
  /-- The next listener is notified of what is fanned out. -/
  | next
  | teardownTimer (entry : ℕ)
  | accept (entry : ℕ)
  | resolve (entry : ℕ)
  | reject (entry : ℕ)
  | event (entry : ℕ) (event : ε)
  | error (entry : ℕ)
  | close (entry : ℕ)

namespace SubscriptionHub

variable {ε : Type*}

def step (teardownDelayMs : ℤ) (s : SubscriptionHub ε) : SubscriptionEvent ε → Option (SubscriptionHub ε)
  | .subscribe groupId => some (s.subscribe groupId () fun _ => none)
  | .unsubscribe listener => s.unsubscribe (0 < teardownDelayMs) listener
  | .next => s.next
  | .teardownTimer entry => s.teardownTimer entry
  | .accept entry => s.accept entry
  | .resolve entry => s.resolve entry id
  | .reject entry => s.reject entry .onError
  | .event entry event =>
    s.callback entry Stream.delivers fun _ => s.fanOut entry (.onEvent event) none
  | .error entry => s.finish entry .onError
  | .close entry => s.finish entry .onClose

def run (teardownDelayMs : ℤ) (events : List (SubscriptionEvent ε)) : Option (SubscriptionHub ε) :=
  runSteps (step teardownDelayMs) Hub.empty events

end SubscriptionHub

end Junjo.React

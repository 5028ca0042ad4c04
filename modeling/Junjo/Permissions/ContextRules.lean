import Junjo.Permissions.Context

/-!
# The rules for contexts

What the server accepts as a context of an entry or a check, and as a `permissions.contexts` table.
Both are folded on the way. A table goes into plain objects, where `__proto__` is not a key.
-/

namespace Junjo

/-- `__proto__` -/
def protoKey : Text := text "__proto__"

/-- `object[key] = value` on a plain object. On `__proto__` it replaces the prototype, and no key
comes to be. -/
def setProperty {ν : Type*} (object : Dict Text ν) (key : Text) (value : ν) : Dict Text ν :=
  if key = protoKey then object else object.set key value

/-! ### Contexts -/

def maxPermissionContextKeys : ℕ := 2

def permissionContextValueMaxLength : ℕ := 64

/-- `^[a-z][a-z0-9_]{0,31}$`. -/
def permissionContextKeyPattern : Text := text "^[a-z][a-z0-9_]\x7b0,31\x7d$"

def isLowerLetter (c : CodeUnit) : Bool := 97 ≤ c.val && c.val ≤ 122

/-- A lower-case letter, a digit or `_`. -/
def isContextKeyUnit (c : CodeUnit) : Bool :=
  isLowerLetter c || (48 ≤ c.val && c.val ≤ 57) || c.val = 95

/-- Whether a key matches the pattern. -/
def matchesContextKey : Text → Bool
  | [] => false
  | c :: rest => isLowerLetter c && rest.length ≤ 31 && rest.all isContextKeyUnit

/-- C0, DEL and C1. -/
def hasControlCharacter (value : Text) : Bool :=
  value.any fun c => c.val < 0x20 || (0x7f ≤ c.val && c.val ≤ 0x9f)

def contextKeyProblem (key : Text) : Option Text :=
  if matchesContextKey key then none
  else some (text "context key " ++ jsonString key ++ text " must match "
    ++ permissionContextKeyPattern)

def contextValueProblem (value : Text) : Option Text :=
  if value.length < 1 || permissionContextValueMaxLength < value.length then
    some (text "context value " ++ jsonString value ++ text " must be 1 to 64 characters")
  else if hasControlCharacter value then
    some (text "context value " ++ jsonString value ++ text " must not contain control characters")
  else none

/-- Check one pair of a context and store it folded. -/
def normalizePair (context : PermissionContext) (e : Text × Text) : Except Text PermissionContext :=
  match contextKeyProblem e.1 with
  | some problem => .error problem
  | none =>
    match contextValueProblem e.2 with
    | some problem => .error problem
    | none => .ok (setProperty context e.1 (foldContextValue e.2))

/-- The folded form of a context, or the reason it is refused. -/
def normalizeContext (raw : Dict Text Text) : Except Text PermissionContext :=
  if maxPermissionContextKeys < raw.size then .error (text "context may have at most 2 keys")
  else raw.sortedEntries.foldlM normalizePair Dict.empty

/-! ### Inheritance tables -/

def maxContextInheritKeys : ℕ := 32

def maxContextInheritValues : ℕ := 256

def maxContextInheritParents : ℕ := 8

inductive VisitState where
  | active
  | done
deriving DecidableEq

/-- What the search for cycles and long chains remembers of the values. -/
structure Visits where
  state : Dict Text VisitState
  longest : Dict Text ℕ

/-- The search from one value, which `path` leads to. `fuel` bounds its depth. -/
def visit (inherit : Dict Text (List Text)) : ℕ → Text → List Text → Visits → Except Text Visits
  | 0, _, _, _ => .error []
  | fuel + 1, value, path, s =>
    match s.state.get? value with
    | some .done => .ok s
    | some .active =>
      .error (text "inheritance has a cycle: " ++ List.intercalate (text " -> ")
        ((path.drop (path.idxOf value) ++ [value]).map jsonString))
    | none => do
      let started := { s with state := s.state.set value .active }
      let (best, searched) ← ((inherit.get? value).getD []).foldlM
        (fun (acc : ℕ × Visits) parent => do
          let s ← visit inherit fuel parent (path ++ [value]) acc.2
          pure (max acc.1 ((s.longest.get? parent).getD 0 + 1), s))
        (0, started)
      if maxContextInheritDepth < best then
        .error (text "inheritance is deeper than 16 steps")
      else .ok ⟨searched.state.set value .done, searched.longest.set value best⟩

/-- The values that a table of parents names. -/
def namedValues (inherit : Dict Text (List Text)) : List Text :=
  inherit.entries.flatMap fun e => e.1 :: e.2

/-- The reason why a table of parents is refused: a cycle, or a chain longer than the limit. -/
def inheritanceShapeProblem (inherit : Dict Text (List Text)) : Option Text :=
  match inherit.keys.foldlM
    (fun s value => visit inherit ((namedValues inherit).length + 1) value [] s)
    ⟨Dict.empty, Dict.empty⟩ with
  | .error problem => some problem
  | .ok _ => none

/-- Check a parent and add its fold, unless it is there. -/
def foldParent (folds : List Text) (parent : Text) : Except Text (List Text) :=
  match contextValueProblem parent with
  | some problem => .error problem
  | none =>
    let f := foldContextValue parent
    .ok (if f ∈ folds then folds else folds ++ [f])

/-- Check a value with its parents and store it folded. -/
def inheritValue (key : Text) (inherit : Dict Text (List Text)) (e : Text × List Text) :
    Except Text (Dict Text (List Text)) :=
  match contextValueProblem e.1 with
  | some problem => .error problem
  | none =>
    let folded := foldContextValue e.1
    if inherit.has folded then
      .error (text "context key " ++ jsonString key ++ text " lists value " ++ jsonString folded
        ++ text " twice ignoring case")
    else if maxContextInheritParents < e.2.length then
      .error (text "context value " ++ jsonString folded ++ text " may have at most 8 parents")
    else do
      let folds ← e.2.foldlM foldParent []
      pure (setProperty inherit folded folds)

/-- Check a key with its values and store it. -/
def inheritKey (contexts : ContextInheritance) (e : Text × Dict Text (List Text)) :
    Except Text ContextInheritance :=
  match contextKeyProblem e.1 with
  | some problem => .error problem
  | none =>
    if maxContextInheritValues < e.2.size then
      .error (text "context key " ++ jsonString e.1 ++ text " may list at most 256 values")
    else do
      let inherit ← e.2.entries.foldlM (inheritValue e.1) Dict.empty
      match inheritanceShapeProblem inherit with
      | some problem => .error (text "context key " ++ jsonString e.1 ++ text ": " ++ problem)
      | none => pure (setProperty contexts e.1 inherit)

/-- The folded form of a `permissions.contexts` table, or the reason it is refused. -/
def normalizeContextInheritance (raw : ContextInheritance) : Except Text ContextInheritance :=
  if maxContextInheritKeys < raw.size then
    .error (text "at most 32 context keys may declare inheritance")
  else raw.sortedEntries.foldlM inheritKey Dict.empty

end Junjo

import Junjo.Core.Dict
import Junjo.Core.Prog
import Junjo.Core.Run

/-!
# Transactions on a shared store

Transactions are programs of statements over a store that they share. A statement sees what is
committed when it runs together with the transaction's own changes (read committed), takes locks
that are held to the end, and waits while another transaction holds a conflicting one. A
transaction that returns commits its changes, unless a constraint of the store refuses them; one
that throws, or is rolled back from outside, leaves nothing.

`Keeps` is the proof rule. A program is followed statement by statement from a committed store, and
after each statement the store may have moved on by commits of others that the locks held so far
admit (`Evolves`). What every program is shown to do at its commit then holds of every commit of
every run (`Database.run_good`).
-/

namespace Junjo

/-- A statement: the locks it takes, what it answers and what it changes, each by the store as it
sees it. A change is refused (`none`) when it breaks a constraint of the store. -/
structure Statement (σ κ : Type) where
  Reply : Type
  locks : σ → List κ
  reply : σ → Reply
  change : σ → Option σ

/-- The programs of transactions that throw errors of `ε` and return values of `α`. -/
abbrev Tx (σ κ ε α : Type) := ExceptT ε (Prog (Statement σ κ) Statement.Reply) α

section Programs

variable {σ κ ε : Type}

/-- A statement as a program. -/
def Statement.perform (s : Statement σ κ) : Tx σ κ ε s.Reply :=
  ExceptT.lift (Prog.perform s)

/-- A statement that only reads. -/
def query {ρ : Type} (reply : σ → ρ) : Tx σ κ ε ρ :=
  Statement.perform ⟨ρ, fun _ => [], reply, some⟩

/-- A statement that locks and reads. -/
def lockQuery {ρ : Type} (locks : σ → List κ) (reply : σ → ρ) : Tx σ κ ε ρ :=
  Statement.perform ⟨ρ, locks, reply, some⟩

/-- A statement that changes the store, with the locks of the rows it writes. -/
def write {ρ : Type} (locks : σ → List κ) (reply : σ → ρ) (change : σ → Option σ) : Tx σ κ ε ρ :=
  Statement.perform ⟨ρ, locks, reply, change⟩

end Programs

/-- A transaction under way: what is left of its program, the locks it holds, the changes it made
and the stores its statements saw. -/
structure Session (σ κ ε α : Type) where
  prog : Tx σ κ ε α
  held : List κ := []
  change : σ → Option σ := some
  seen : List σ := []

/-- The store, the transactions under way, and what the committed ones returned, oldest first. -/
structure Database (σ κ ε α : Type) where
  committed : σ
  sessions : Dict ℕ (Session σ κ ε α) := Dict.empty
  log : List α := []

inductive TxEvent (ι : Type) where
  | start (id : ℕ) (request : ι)
  | advance (id : ℕ)
  | rollback (id : ℕ)

section Machine

variable {σ κ ε α ι : Type}

/-- The session after a statement that saw `view`. -/
def Session.after (session : Session σ κ ε α) (s : Statement σ κ) (view : σ) (prog : Tx σ κ ε α) :
    Session σ κ ε α where
  prog := prog
  held := session.held ++ s.locks view
  change := fun c => (session.change c).bind s.change
  seen := session.seen ++ [view]

variable (conflicts : κ → κ → Bool)

/-- Whether some lock is held by another session in a conflicting way. -/
def Database.blocks (db : Database σ κ ε α) (id : ℕ) (locks : List κ) : Bool :=
  db.sessions.entries.any fun other =>
    other.1 ≠ id && other.2.held.any fun k => locks.any fun l => conflicts k l

/-- A session without its changes and locks. -/
def Database.drop (db : Database σ κ ε α) (id : ℕ) : Database σ κ ε α :=
  { db with sessions := db.sessions.delete id }

/-- One statement of a session, or its end; `none` while it waits for a lock. -/
def Database.advance (db : Database σ κ ε α) (id : ℕ) (session : Session σ κ ε α) :
    Option (Database σ κ ε α) :=
  match session.change db.committed with
  | none => some (db.drop id)
  | some view =>
    match session.prog with
    | .done (.error _) => some (db.drop id)
    | .done (.ok a) =>
      some { committed := view, sessions := db.sessions.delete id, log := db.log ++ [a] }
    | .op s next =>
      if db.blocks conflicts id (s.locks view) then none
      else
        match s.change view with
        | none => some (db.drop id)
        | some _ =>
          some { db with
            sessions := db.sessions.set id (session.after s view (next (s.reply view))) }

/-- One event; `none` when it is not possible. -/
def Database.next (program : ι → Tx σ κ ε α) (db : Database σ κ ε α) :
    TxEvent ι → Option (Database σ κ ε α)
  | .start id request =>
    if db.sessions.has id then none
    else some { db with sessions := db.sessions.set id { prog := program request } }
  | .advance id => (db.sessions.get? id).bind fun session => db.advance conflicts id session
  | .rollback id => if db.sessions.has id then some (db.drop id) else none

end Machine

/-! ### What transactions keep -/

section Rule

variable {σ κ ε α ι : Type} (conflicts : κ → κ → Bool)

/-- What holds of every committed store (`inv`), what a transaction does to it with its locks when
it commits (`effect`), and the commits that are looked at (`admits`). -/
structure Discipline (σ κ α : Type) where
  inv : σ → Prop
  effect : α → List κ → σ → σ → Prop
  admits : α → List σ → σ → Prop := fun _ _ _ => True

variable (d : Discipline σ κ α)

/-- No lock of the one list conflicts with one of the other. -/
def Compatible (held held' : List κ) : Prop := ∀ k ∈ held, ∀ k' ∈ held', conflicts k k' = false

/-- The store moved on by commits that go with some held locks. -/
def Evolves (held : List κ) : σ → σ → Prop :=
  Relation.ReflTransGen fun c c' =>
    d.inv c ∧ d.inv c' ∧ ∃ a held', Compatible conflicts held held' ∧ d.effect a held' c c'

/-- The rest of a program does what it should, started on a committed store with what the
session did so far. -/
def Keeps : Tx σ κ ε α → List κ → (σ → Option σ) → List σ → σ → Prop
  | .done (.error _), _, _, _, _ => True
  | .done (.ok a), held, change, seen, c => d.inv c → d.admits a seen c →
      ∀ c', change c = some c' → d.inv c' ∧ d.effect a held c c'
  | .op s next, held, change, seen, c => d.inv c → ∀ view, change c = some view →
      ∀ c', Evolves conflicts d (held ++ s.locks view) c c' →
        Keeps (next (s.reply view)) (held ++ s.locks view) (fun c => (change c).bind s.change)
          (seen ++ [view]) c'

variable {conflicts d}

/-- What is kept by each commit that goes with the locks is kept while the store moves on. -/
lemma Evolves.preserves {held : List κ} {c c' : σ} (h : Evolves conflicts d held c c') {P : σ → Prop}
    (hstep : ∀ c c' a held', d.inv c → d.inv c' → Compatible conflicts held held' →
      d.effect a held' c c' → P c → P c') (hc : P c) : P c' := by
  induction h with
  | refl => exact hc
  | tail _ hlast ih =>
    obtain ⟨hinv, hinv', a, held', hcompat, heffect⟩ := hlast
    exact hstep _ _ a held' hinv hinv' hcompat heffect ih

lemma Evolves.inv {held : List κ} {c c' : σ} (h : Evolves conflicts d held c c') (hc : d.inv c) :
    d.inv c' :=
  h.preserves (fun _ _ _ _ _ hinv' _ _ _ => hinv') hc

lemma Evolves.trans {held : List κ} {c₁ c₂ c₃ : σ} (h : Evolves conflicts d held c₁ c₂)
    (h' : Evolves conflicts d held c₂ c₃) : Evolves conflicts d held c₁ c₃ :=
  Relation.ReflTransGen.trans h h'

/-- Fewer locks admit more. -/
lemma Evolves.mono {held held' : List κ} {c c' : σ} (h : Evolves conflicts d held c c')
    (hsub : held' ⊆ held) : Evolves conflicts d held' c c' := by
  refine Relation.ReflTransGen.mono (fun c c' hstep => ?_) c c' h
  obtain ⟨hinv, hinv', a, other, hcompat, heffect⟩ := hstep
  exact ⟨hinv, hinv', a, other, fun k hk => hcompat k (hsub hk), heffect⟩

/-! ### The rule, statement by statement -/

section Steps

variable {held : List κ} {change : σ → Option σ} {seen : List σ} {c : σ} {ρ : Type}

@[simp] lemma keeps_throw (e : ε) :
    Keeps conflicts d (throw e : Tx σ κ ε α) held change seen c ↔ True := Iff.rfl

lemma keeps_pure (a : α) :
    Keeps conflicts d (pure a : Tx σ κ ε α) held change seen c ↔
      (d.inv c → d.admits a seen c → ∀ c', change c = some c' → d.inv c' ∧ d.effect a held c c') :=
  Iff.rfl

lemma keeps_write (locks : σ → List κ) (reply : σ → ρ) (w : σ → Option σ) (k : ρ → Tx σ κ ε α) :
    Keeps conflicts d (write locks reply w >>= k) held change seen c ↔
      (d.inv c → ∀ view, change c = some view →
        ∀ c', Evolves conflicts d (held ++ locks view) c c' →
          Keeps conflicts d (k (reply view)) (held ++ locks view) (fun c => (change c).bind w)
            (seen ++ [view]) c') :=
  Iff.rfl

lemma keeps_lockQuery (locks : σ → List κ) (reply : σ → ρ) (k : ρ → Tx σ κ ε α) :
    Keeps conflicts d (lockQuery locks reply >>= k) held change seen c ↔
      (d.inv c → ∀ view, change c = some view →
        ∀ c', Evolves conflicts d (held ++ locks view) c c' →
          Keeps conflicts d (k (reply view)) (held ++ locks view) change (seen ++ [view]) c') := by
  have hsame : (fun c => (change c).bind some) = change := funext fun c => Option.bind_fun_some _
  change (d.inv c → ∀ view, change c = some view →
    ∀ c', Evolves conflicts d (held ++ locks view) c c' →
      Keeps conflicts d (k (reply view)) (held ++ locks view) (fun c => (change c).bind some)
        (seen ++ [view]) c') ↔ _
  rw [hsame]

lemma keeps_query (reply : σ → ρ) (k : ρ → Tx σ κ ε α) :
    Keeps conflicts d (query reply >>= k) held change seen c ↔
      (d.inv c → ∀ view, change c = some view → ∀ c', Evolves conflicts d held c c' →
          Keeps conflicts d (k (reply view)) held change (seen ++ [view]) c') := by
  have h : Keeps conflicts d (query reply >>= k) held change seen c ↔ _ :=
    keeps_lockQuery (fun _ => []) reply k
  simpa only [List.append_nil] using h

end Steps

/-! ### Parts of programs that change nothing -/

section Reads

variable (conflicts d)

/-- A program that changes nothing and returns what meets a condition: what follows it goes on from
a later store, with more locks. -/
def Reads {ρ : Type} (p : Tx σ κ ε ρ) (post : ρ → Prop) : Prop :=
  ∀ (k : ρ → Tx σ κ ε α) held change seen c,
    (∀ b held' seen' c', post b → held ⊆ held' → Evolves conflicts d held c c' →
      Keeps conflicts d (k b) held' change seen' c') →
    Keeps conflicts d (p >>= k) held change seen c

variable {conflicts d} {ρ τ : Type}

lemma Reads.pure {b : ρ} {post : ρ → Prop} (h : post b) :
    Reads conflicts d (pure b : Tx σ κ ε ρ) post :=
  fun _ held _ seen c hk => hk b held seen c h (List.Subset.refl _) .refl

lemma Reads.throw (e : ε) (post : ρ → Prop) : Reads conflicts d (throw e : Tx σ κ ε ρ) post :=
  fun _ _ _ _ _ _ => trivial

lemma Reads.lockQuery (locks : σ → List κ) (reply : σ → ρ) {post : ρ → Prop}
    (h : ∀ view, post (reply view)) :
    Reads conflicts d (lockQuery locks reply : Tx σ κ ε ρ) post := by
  intro k held change seen c hk
  rw [keeps_lockQuery]
  intro _ view _ c' hc'
  exact hk _ _ _ _ (h view) (List.subset_append_left _ _)
    (hc'.mono (List.subset_append_left _ _))

lemma Reads.query (reply : σ → ρ) {post : ρ → Prop} (h : ∀ view, post (reply view)) :
    Reads conflicts d (query reply : Tx σ κ ε ρ) post :=
  Reads.lockQuery (fun _ => []) reply h

lemma Reads.bind {p : Tx σ κ ε ρ} {post : ρ → Prop} {f : ρ → Tx σ κ ε τ} {post' : τ → Prop}
    (hp : Reads conflicts d p post) (hf : ∀ b, post b → Reads conflicts d (f b) post') :
    Reads conflicts d (p >>= f) post' := by
  intro k held change seen c hk
  rw [bind_assoc]
  refine hp _ _ _ _ _ fun b held' seen' c' hb hheld hc' => ?_
  refine hf b hb _ _ _ _ _ fun b' held'' seen'' c'' hb' hheld' hc'' => ?_
  exact hk b' held'' seen'' c'' hb' (List.Subset.trans hheld hheld') (hc'.trans (hc''.mono hheld))

lemma Reads.andThen {p : Tx σ κ ε ρ} {f : ρ → Tx σ κ ε τ} {post : τ → Prop}
    (hp : Reads conflicts d p fun _ => True) (hf : ∀ b, Reads conflicts d (f b) post) :
    Reads conflicts d (p >>= f) post :=
  hp.bind fun b _ => hf b

end Reads

/-! ### Programs whose changes all keep a relation -/

section Within

/-- Every change that a program makes keeps a relation of stores, and every value that it returns
meets a condition. -/
def Within {ρ : Type} (R : σ → σ → Prop) (post : ρ → Prop) : Tx σ κ ε ρ → Prop
  | .done (.error _) => True
  | .done (.ok a) => post a
  | .op s next => (∀ c c', s.change c = some c' → R c c') ∧ ∀ b, Within R post (next b)

variable {ρ τ : Type} {R : σ → σ → Prop}

lemma Within.throw (e : ε) (post : ρ → Prop) :
    Within R post (throw e : Tx σ κ ε ρ) := trivial

lemma Within.pure {post : ρ → Prop} {a : ρ} (h : post a) :
    Within R post (pure a : Tx σ κ ε ρ) := h

lemma Within.write (locks : σ → List κ) (reply : σ → ρ) {w : σ → Option σ}
    (hw : ∀ c c', w c = some c' → R c c') :
    Within R (fun _ => True) (write locks reply w : Tx σ κ ε ρ) :=
  ⟨hw, fun _ => trivial⟩

lemma Within.lockQuery (hrefl : ∀ c, R c c) (locks : σ → List κ) (reply : σ → ρ) :
    Within R (fun _ => True) (lockQuery locks reply : Tx σ κ ε ρ) :=
  Within.write locks reply fun c _ h => Option.some.inj h ▸ hrefl c

lemma Within.query (hrefl : ∀ c, R c c) (reply : σ → ρ) :
    Within R (fun _ => True) (query reply : Tx σ κ ε ρ) :=
  Within.lockQuery hrefl _ reply

lemma Within.bind {p : Tx σ κ ε ρ} {f : ρ → Tx σ κ ε τ} {post : ρ → Prop} {post' : τ → Prop}
    (hp : Within R post p) (hf : ∀ a, post a → Within R post' (f a)) :
    Within R post' (p >>= f) := by
  induction p with
  | done result =>
    cases result with
    | error e => trivial
    | ok a => exact hf a hp
  | op s next ih => exact ⟨hp.1, fun b => ih b (hp.2 b)⟩

/-- A program whose changes keep a relation that is enough for the invariant and the effect does
what it should. -/
lemma Within.keeps {p : Tx σ κ ε α} {post : α → Prop} (hp : Within R post p)
    (htrans : ∀ c₁ c₂ c₃, R c₁ c₂ → R c₂ c₃ → R c₁ c₃)
    (hR : ∀ a held c c', post a → d.inv c → R c c' → d.inv c' ∧ d.effect a held c c')
    {held : List κ} {change : σ → Option σ} (hchange : ∀ c c', change c = some c' → R c c')
    {seen : List σ} {c : σ} : Keeps conflicts d p held change seen c := by
  induction p generalizing held change seen c with
  | done result =>
    cases result with
    | error e => trivial
    | ok a => exact fun hinv _ c' hc' => hR a held c c' hp hinv (hchange c c' hc')
  | op s next ih =>
    intro _ view _ c' _
    apply ih
    · exact hp.2 _
    · intro c₁ c₃ h
      obtain ⟨c₂, h₁, h₂⟩ := Option.bind_eq_some_iff.mp h
      exact htrans c₁ c₂ c₃ (hchange c₁ c₂ h₁) (hp.1 c₂ c₃ h₂)

end Within

/-! ### Runs -/

variable (conflicts d)

/-- Every session does what it should from here on, and no two hold conflicting locks. -/
structure Database.Good (db : Database σ κ ε α) : Prop where
  inv : d.inv db.committed
  compatible : ∀ id id' s s', db.sessions.get? id = some s → db.sessions.get? id' = some s' →
    id ≠ id' → Compatible conflicts s.held s'.held
  keeps : ∀ id s, db.sessions.get? id = some s → ∀ c', Evolves conflicts d s.held db.committed c' →
    Keeps conflicts d s.prog s.held s.change s.seen c'

/-- The commit made by an event, if any, is one of those looked at. -/
def Database.Admitted (db : Database σ κ ε α) : TxEvent ι → Prop
  | .advance id => ∀ s a, db.sessions.get? id = some s → s.prog = pure a →
      (s.change db.committed).isSome → d.admits a s.seen db.committed
  | _ => True

variable {conflicts d} {program : ι → Tx σ κ ε α} {db db' : Database σ κ ε α}

/-- Where every commit is looked at, every event is. -/
lemma Database.admitted (h : ∀ a seen c, d.admits a seen c) (db : Database σ κ ε α)
    (e : TxEvent ι) : db.Admitted d e := by
  cases e with
  | advance id => exact fun s a _ _ _ => h a s.seen db.committed
  | start _ _ => trivial
  | rollback _ => trivial

/-- Without a session, or with a session whose locks were compatible, all stays as it is. -/
lemma Database.Good.drop (h : db.Good conflicts d) (id : ℕ) : (db.drop id).Good conflicts d where
  inv := h.inv
  compatible := by
    intro i j s s' hi hj hij
    rw [Database.drop, Dict.get?_delete] at hi hj
    split_ifs at hi hj
    exact h.compatible i j s s' hi hj hij
  keeps := by
    intro i s hi
    rw [Database.drop, Dict.get?_delete] at hi
    split_ifs at hi
    exact h.keeps i s hi

lemma Compatible.symm (hsymm : ∀ k l, conflicts k l = conflicts l k) {held held' : List κ}
    (h : Compatible conflicts held held') : Compatible conflicts held' held :=
  fun k hk l hl => hsymm k l ▸ h l hl k hk

lemma Database.compatible_of_not_blocks {id : ℕ} {locks : List κ}
    (h : ¬ db.blocks conflicts id locks) {id' : ℕ} (hne : id' ≠ id) {s : Session σ κ ε α}
    (hs : db.sessions.get? id' = some s) : Compatible conflicts s.held locks := by
  intro k hk l hl
  by_contra hconflict
  refine h (List.any_eq_true.mpr ⟨(id', s), Dict.get?_eq_some_iff.mp hs, ?_⟩)
  simp only [ne_eq, hne, not_false_eq_true, decide_true, Bool.true_and, List.any_eq_true]
  exact ⟨k, hk, l, hl, Bool.eq_true_of_not_eq_false hconflict⟩

/-- What one event does. -/
theorem Database.next_good (hsymm : ∀ k l, conflicts k l = conflicts l k)
    (hprog : ∀ r c, Keeps conflicts d (program r) [] some [] c) (h : db.Good conflicts d)
    {e : TxEvent ι} (hlooked : db.Admitted d e) (hnext : db.next conflicts program e = some db') :
    db'.Good conflicts d ∧ ((db'.committed = db.committed ∧ db'.log = db.log) ∨
      ∃ a held, db'.log = db.log ++ [a] ∧ d.effect a held db.committed db'.committed) := by
  cases e with
  | start id r =>
    rw [Database.next] at hnext
    split_ifs at hnext with hid
    cases hnext
    refine ⟨⟨h.inv, ?_, ?_⟩, .inl ⟨rfl, rfl⟩⟩
    · intro i j s s' hi hj hij
      rw [Dict.get?_set] at hi hj
      split_ifs at hi hj with hi' hj'
      · exact absurd (hi'.trans hj'.symm) hij
      · cases hi
        exact fun k hk => absurd hk (by simp)
      · cases hj
        exact fun k _ l hl => absurd hl (by simp)
      · exact h.compatible i j s s' hi hj hij
    · intro i s hi
      rw [Dict.get?_set] at hi
      split_ifs at hi
      · cases hi
        exact fun c' _ => hprog r c'
      · exact h.keeps i s hi
  | rollback id =>
    rw [Database.next] at hnext
    split_ifs at hnext
    cases hnext
    exact ⟨h.drop id, .inl ⟨rfl, rfl⟩⟩
  | advance id =>
    rw [Database.next, Option.bind_eq_some_iff] at hnext
    obtain ⟨s, hs, hadvance⟩ := hnext
    have hkeeps := h.keeps id s hs db.committed .refl
    rw [Database.advance] at hadvance
    cases hview : s.change db.committed with
    | none =>
      rw [hview] at hadvance
      cases hadvance
      exact ⟨h.drop id, .inl ⟨rfl, rfl⟩⟩
    | some view =>
      rw [hview] at hadvance
      cases hs' : s.prog with
      | done result =>
        rw [hs'] at hadvance hkeeps
        cases result with
        | error e =>
          cases hadvance
          exact ⟨h.drop id, .inl ⟨rfl, rfl⟩⟩
        | ok a =>
          cases hadvance
          have hlooked := hlooked s a hs hs' (by rw [hview]; rfl)
          obtain ⟨hinv, heffect⟩ := hkeeps h.inv hlooked view hview
          refine ⟨⟨hinv, (h.drop id).compatible, ?_⟩, .inr ⟨a, s.held, rfl, heffect⟩⟩
          intro i t hi c' hevolves
          rw [Dict.get?_delete] at hi
          split_ifs at hi with hne
          refine h.keeps i t hi c' (.head ⟨h.inv, hinv, a, s.held, ?_, heffect⟩ hevolves)
          exact h.compatible i id t s hi hs hne
      | op st next =>
        rw [hs'] at hadvance hkeeps
        dsimp only at hadvance
        split_ifs at hadvance with hblocks
        cases hchange : st.change view with
        | none =>
          rw [hchange] at hadvance
          cases hadvance
          exact ⟨h.drop id, .inl ⟨rfl, rfl⟩⟩
        | some _ =>
          rw [hchange] at hadvance
          cases hadvance
          refine ⟨⟨h.inv, ?_, ?_⟩, .inl ⟨rfl, rfl⟩⟩
          · have hafter : ∀ i t, i ≠ id → db.sessions.get? i = some t → Compatible conflicts t.held
                (s.after st view (next (st.reply view))).held := by
              intro i t hi ht k hk l hl
              rcases List.mem_append.mp hl with hl | hl
              · exact h.compatible i id t s ht hs hi k hk l hl
              · exact Database.compatible_of_not_blocks hblocks hi ht k hk l hl
            intro i j t t' hi hj hij
            rw [Dict.get?_set] at hi hj
            split_ifs at hi hj with hi' hj'
            · exact absurd (hi'.trans hj'.symm) hij
            · cases hi
              exact (hafter j t' hj' hj).symm hsymm
            · cases hj
              exact hafter i t hi' hi
            · exact h.compatible i j t t' hi hj hij
          · intro i t hi c' hevolves
            rw [Dict.get?_set] at hi
            split_ifs at hi
            · cases hi
              exact hkeeps h.inv view hview c' hevolves
            · exact h.keeps i t hi c' hevolves

variable (d) in
/-- The store and the log after some commits. -/
def Commits : σ × List α → σ × List α → Prop :=
  Relation.ReflTransGen fun p q =>
    d.inv p.1 ∧ d.inv q.1 ∧ ∃ a held, d.effect a held p.1 q.1 ∧ q.2 = p.2 ++ [a]

lemma Commits.trans {p q r : σ × List α} (h : Commits d p q) (h' : Commits d q r) :
    Commits d p r := Relation.ReflTransGen.trans h h'

/-- What is kept by each commit. -/
lemma Commits.preserves {p q : σ × List α} (h : Commits d p q) {J : σ → List α → Prop}
    (hstep : ∀ c c' log a held, d.inv c → d.inv c' → J c log → d.effect a held c c' →
      J c' (log ++ [a])) (hp : J p.1 p.2) : J q.1 q.2 := by
  induction h with
  | refl => exact hp
  | tail _ hlast ih =>
    obtain ⟨hinv, hinv', a, held, heffect, hlog⟩ := hlast
    rw [hlog]
    exact hstep _ _ _ a held hinv hinv' ih heffect

lemma Database.good_start {start : σ} (hstart : d.inv start) :
    Database.Good conflicts d ({ committed := start } : Database σ κ ε α) :=
  ⟨hstart, fun _ _ _ _ hi => by simp at hi, fun _ _ hi => by simp at hi⟩

/-- A run from a good database, whose commits are all looked at, moves it on by commits. -/
theorem Database.run_commits (hsymm : ∀ k l, conflicts k l = conflicts l k)
    (hprog : ∀ r c, Keeps conflicts d (program r) [] some [] c) (hgood : db.Good conflicts d)
    {events : List (TxEvent ι)}
    (hrun : runSteps (Database.next conflicts program) db events = some db')
    (hlooked : ∀ before e after db₁, events = before ++ e :: after →
      runSteps (Database.next conflicts program) db before = some db₁ → db₁.Admitted d e) :
    db'.Good conflicts d ∧ Commits d (db.committed, db.log) (db'.committed, db'.log) := by
  have hstart : db.Good conflicts d ∧ Commits d (db.committed, db.log) (db.committed, db.log) :=
    ⟨hgood, Relation.ReflTransGen.refl⟩
  refine runSteps_invariant_of (P := fun db' => db'.Good conflicts d ∧
      Commits d (db.committed, db.log) (db'.committed, db'.log))
    (C := fun db e => db.Admitted d e) ?_ hstart hrun hlooked
  rintro db₁ e db₂ ⟨hdb₁, hcommits⟩ hlooked hnext
  obtain ⟨hdb₂, ⟨hcommitted, hlog⟩ | ⟨a, held, hlog, heffect⟩⟩ :=
    Database.next_good hsymm hprog hdb₁ hlooked hnext
  · exact ⟨hdb₂, by rwa [hcommitted, hlog]⟩
  · exact ⟨hdb₂, hcommits.tail ⟨hdb₁.inv, hdb₂.inv, a, held, heffect, hlog⟩⟩

/-- A run whose commits are all looked at keeps the invariant, and whatever relation between the
store and the log each commit keeps. -/
theorem Database.run_good (hsymm : ∀ k l, conflicts k l = conflicts l k)
    (hprog : ∀ r c, Keeps conflicts d (program r) [] some [] c) {start : σ} (hstart : d.inv start)
    {J : σ → List α → Prop} (hJ : J start []) (hstep : ∀ c c' log a held, d.inv c → d.inv c' →
      J c log → d.effect a held c c' → J c' (log ++ [a])) {events : List (TxEvent ι)}
    (hrun : runSteps (Database.next conflicts program) { committed := start } events = some db)
    (hlooked : ∀ before e after db₁, events = before ++ e :: after →
      runSteps (Database.next conflicts program) { committed := start } before = some db₁ →
      db₁.Admitted d e) :
    db.Good conflicts d ∧ J db.committed db.log := by
  obtain ⟨hgood, hcommits⟩ :=
    Database.run_commits hsymm hprog (Database.good_start hstart) hrun hlooked
  exact ⟨hgood, hcommits.preserves hstep hJ⟩

/-! ### The commits of a run -/

/-- A commit: what the transaction returned, and the store before and after. -/
structure Commit (σ α : Type) where
  result : α
  before : σ
  after : σ

/-- What the transaction returns that an event commits. -/
def Database.commitOf (db : Database σ κ ε α) : TxEvent ι → Option α
  | .advance id => (db.sessions.get? id).bind fun session =>
    match session.prog with
    | .done (.ok a) => if (session.change db.committed).isSome then some a else none
    | _ => none
  | _ => none

/-- What the transaction returns that an event commits, and the stores its statements saw. -/
def Database.commitSeen (db : Database σ κ ε α) : TxEvent ι → Option (α × List σ)
  | .advance id => (db.sessions.get? id).bind fun session =>
    match session.prog with
    | .done (.ok a) =>
      if (session.change db.committed).isSome then some (a, session.seen) else none
    | _ => none
  | _ => none

variable (d) in
/-- An event is looked at whose commit, if it makes one, is. -/
lemma Database.admitted_of_commitSeen {e : TxEvent ι}
    (h : ∀ x ∈ db.commitSeen e, d.admits x.1 x.2 db.committed) : db.Admitted d e := by
  cases e with
  | start id r => trivial
  | rollback id => trivial
  | advance id =>
    intro s a hs hprog hsome
    apply h (a, s.seen)
    rw [Database.commitSeen, hs, Option.bind_some, hprog]
    exact if_pos hsome

variable (conflicts) in
/-- The commits of a run, oldest first. -/
def Database.commits (program : ι → Tx σ κ ε α) :
    Database σ κ ε α → List (TxEvent ι) → List (Commit σ α)
  | _, [] => []
  | db, e :: events =>
    match db.next conflicts program e with
    | none => []
    | some db' => ((db.commitOf e).toList.map fun a => ⟨a, db.committed, db'.committed⟩) ++
        db'.commits program events

/-- An event commits what one transaction returns, or leaves the store. -/
lemma Database.next_commitOf {e : TxEvent ι} (h : db.next conflicts program e = some db') :
    (db.commitOf e = none ∧ db'.committed = db.committed ∧ db'.log = db.log) ∨
      ∃ a, db.commitOf e = some a ∧ db'.log = db.log ++ [a] := by
  cases e with
  | start id r =>
    rw [Database.next] at h
    split_ifs at h
    cases h
    exact .inl ⟨rfl, rfl, rfl⟩
  | rollback id =>
    rw [Database.next] at h
    split_ifs at h
    cases h
    exact .inl ⟨rfl, rfl, rfl⟩
  | advance id =>
    rw [Database.next, Option.bind_eq_some_iff] at h
    obtain ⟨s, hs, hadvance⟩ := h
    rw [Database.commitOf, hs, Option.bind_some]
    rw [Database.advance] at hadvance
    match hview : s.change db.committed, hprog : s.prog with
    | none, .done (.ok a) =>
      rw [hview] at hadvance
      cases hadvance
      exact .inl ⟨rfl, rfl, rfl⟩
    | none, .done (.error e) =>
      rw [hview] at hadvance
      cases hadvance
      exact .inl ⟨rfl, rfl, rfl⟩
    | none, .op st next =>
      rw [hview] at hadvance
      cases hadvance
      exact .inl ⟨rfl, rfl, rfl⟩
    | some view, .done (.ok a) =>
      rw [hview, hprog] at hadvance
      cases hadvance
      exact .inr ⟨a, rfl, rfl⟩
    | some view, .done (.error e) =>
      rw [hview, hprog] at hadvance
      cases hadvance
      exact .inl ⟨rfl, rfl, rfl⟩
    | some view, .op st next =>
      rw [hview, hprog] at hadvance
      dsimp only at hadvance
      split_ifs at hadvance
      cases hchange : st.change view with
      | none =>
        rw [hchange] at hadvance
        cases hadvance
        exact .inl ⟨rfl, rfl, rfl⟩
      | some _ =>
        rw [hchange] at hadvance
        cases hadvance
        exact .inl ⟨rfl, rfl, rfl⟩

lemma Database.commits_cons {e : TxEvent ι} {events : List (TxEvent ι)}
    (h : db.next conflicts program e = some db') :
    db.commits conflicts program (e :: events) =
      ((db.commitOf e).toList.map fun a => ⟨a, db.committed, db'.committed⟩) ++
        db'.commits conflicts program events := by
  rw [Database.commits, h]

/-- The commits of a run whose events can be split. -/
lemma Database.commits_append {before after : List (TxEvent ι)}
    (h : runSteps (Database.next conflicts program) db before = some db') :
    db.commits conflicts program (before ++ after) =
      db.commits conflicts program before ++ db'.commits conflicts program after := by
  induction before generalizing db with
  | nil => cases h; rfl
  | cons e before ih =>
    rw [runSteps_cons, Option.bind_eq_some_iff] at h
    obtain ⟨db₁, hnext, hrest⟩ := h
    rw [List.cons_append, Database.commits_cons hnext, Database.commits_cons hnext, ih hrest,
      List.append_assoc]

/-- Each commit of a run is one of its events. -/
lemma Database.commits_split {events : List (TxEvent ι)} {c : Commit σ α}
    (hc : c ∈ db.commits conflicts program events) : ∃ before e after db₁ db₂,
      events = before ++ e :: after ∧
      runSteps (Database.next conflicts program) db before = some db₁ ∧
      db₁.next conflicts program e = some db₂ ∧ db₁.commitOf e = some c.result ∧
      c.before = db₁.committed ∧ c.after = db₂.committed := by
  induction events generalizing db with
  | nil => exact absurd hc (by simp [Database.commits])
  | cons e events ih =>
    cases hnext : db.next conflicts program e with
    | none =>
      rw [Database.commits, hnext] at hc
      exact absurd hc (by simp)
    | some db' =>
      rw [Database.commits_cons hnext, List.mem_append, List.mem_map] at hc
      rcases hc with ⟨a, ha, rfl⟩ | hc
      · exact ⟨[], e, events, db, db', rfl, rfl, hnext, Option.mem_toList.mp ha, rfl, rfl⟩
      · obtain ⟨before, e', after, db₁, db₂, rfl, hrun, hrest⟩ := ih hc
        refine ⟨e :: before, e', after, db₁, db₂, rfl, ?_, hrest⟩
        rw [runSteps_cons, hnext]
        exact hrun

lemma Database.mem_commits {before after : List (TxEvent ι)} {e : TxEvent ι}
    {db₁ db₂ : Database σ κ ε α} {a : α}
    (hrun : runSteps (Database.next conflicts program) db before = some db₁)
    (hnext : db₁.next conflicts program e = some db₂) (ha : db₁.commitOf e = some a) :
    ⟨a, db₁.committed, db₂.committed⟩ ∈ db.commits conflicts program (before ++ e :: after) := by
  rw [Database.commits_append hrun, Database.commits_cons hnext, ha]
  simp

/-- What the commits of a run return is what the run logs. -/
lemma Database.log_eq_commits {events : List (TxEvent ι)}
    (h : runSteps (Database.next conflicts program) db events = some db') :
    db'.log = db.log ++ (db.commits conflicts program events).map Commit.result := by
  induction events generalizing db with
  | nil => cases h; simp [Database.commits]
  | cons e events ih =>
    rw [runSteps_cons, Option.bind_eq_some_iff] at h
    obtain ⟨db₁, hnext, hrest⟩ := h
    rw [ih hrest, Database.commits_cons hnext]
    rcases Database.next_commitOf hnext with ⟨hnone, -, hlog⟩ | ⟨a, ha, hlog⟩
    · rw [hnone, hlog]
      rfl
    · rw [ha, hlog]
      simp

/-- What holds at the start and is kept by each commit of a run holds of the store and the log. -/
lemma Database.commits_induct {J : σ → List α → Prop} {events : List (TxEvent ι)}
    (hrun : runSteps (Database.next conflicts program) db events = some db')
    (hstep : ∀ c ∈ db.commits conflicts program events, ∀ log,
      J c.before log → J c.after (log ++ [c.result]))
    (h : J db.committed db.log) : J db'.committed db'.log := by
  induction events generalizing db with
  | nil => cases hrun; exact h
  | cons e events ih =>
    rw [runSteps_cons, Option.bind_eq_some_iff] at hrun
    obtain ⟨db₁, hnext, hrest⟩ := hrun
    rw [Database.commits_cons hnext] at hstep
    refine ih hrest (fun c hc => hstep c (List.mem_append_right _ hc)) ?_
    rcases Database.next_commitOf hnext with ⟨-, hcommitted, hlog⟩ | ⟨a, ha, hlog⟩
    · rwa [hcommitted, hlog]
    · rw [hlog]
      exact hstep ⟨a, db.committed, db₁.committed⟩ (by simp [ha]) _ h

/-- Each commit of a run whose commits are all looked at does what its transaction should. -/
theorem Database.commit_effect_of (hsymm : ∀ k l, conflicts k l = conflicts l k)
    (hprog : ∀ r c, Keeps conflicts d (program r) [] some [] c) (hgood : db.Good conflicts d)
    {events : List (TxEvent ι)} (hlooked : ∀ before e after db₁, events = before ++ e :: after →
      runSteps (Database.next conflicts program) db before = some db₁ → db₁.Admitted d e)
    {c : Commit σ α} (hc : c ∈ db.commits conflicts program events) :
    d.inv c.before ∧ d.inv c.after ∧ ∃ held, d.effect c.result held c.before c.after := by
  obtain ⟨before, e, after, db₁, db₂, hevents, hbefore, hnext, ha, hc₁, hc₂⟩ :=
    Database.commits_split hc
  have hearlier : ∀ before₁ e₁ after₁ db₁, before = before₁ ++ e₁ :: after₁ →
      runSteps (Database.next conflicts program) db before₁ = some db₁ → db₁.Admitted d e₁ := by
    intro before₁ e₁ after₁ db₁ h
    apply hlooked before₁ e₁ (after₁ ++ e :: after)
    rw [hevents, h, List.append_assoc, List.cons_append]
  obtain ⟨hgood₁, -⟩ := Database.run_commits hsymm hprog hgood hbefore hearlier
  obtain ⟨hgood₂, ⟨-, hlog⟩ | ⟨a, held, hlog, heffect⟩⟩ :=
    Database.next_good hsymm hprog hgood₁ (hlooked before e after db₁ hevents hbefore) hnext
  all_goals
    rcases Database.next_commitOf hnext with ⟨hnone, -, -⟩ | ⟨b, hb, hlog'⟩
    · rw [hnone] at ha
      cases ha
  · rw [hlog'] at hlog
    simp at hlog
  · rw [ha, Option.some.injEq] at hb
    rw [hlog', ← hb] at hlog
    have hresult : c.result = a := by simpa using hlog
    rw [hc₁, hc₂, hresult]
    exact ⟨hgood₁.inv, hgood₂.inv, held, heffect⟩

/-- Each commit of a run does what its transaction should. -/
theorem Database.commit_effect (hsymm : ∀ k l, conflicts k l = conflicts l k)
    (hprog : ∀ r c, Keeps conflicts d (program r) [] some [] c)
    (hadmits : ∀ a seen c, d.admits a seen c) (hgood : db.Good conflicts d)
    {events : List (TxEvent ι)} {c : Commit σ α}
    (hc : c ∈ db.commits conflicts program events) :
    ∃ held, d.effect c.result held c.before c.after :=
  (Database.commit_effect_of hsymm hprog hgood
    (fun _ e _ db₁ _ _ => Database.admitted hadmits db₁ e) hc).2.2

end Rule

end Junjo

import Junjo.Webhooks.Worker

/-!
# One request an endpoint

In the runs in which a call of `deliverOne` throws only as the last thing of its tick, ticks do not
overlap: an endpoint has one request under way at most, and a tick attempts every delivery that it
claimed once or releases it.
-/

namespace Junjo.Webhooks

open WebhookTables (ClaimedDelivery)

/-! ### Lanes -/

section Lanes

variable {created : Dict ℕ ℕ}

/-- No endpoint has deliveries in both lanes. -/
def Apart (created : Dict ℕ ℕ) (l l' : List ℕ) : Prop :=
  ∀ id ∈ l, ∀ id' ∈ l', created.get? id ≠ created.get? id'

lemma Apart.symm {l l' : List ℕ} (h : Apart created l l') : Apart created l' l :=
  fun id hid id' hid' heq => h id' hid' id hid heq.symm

lemma Apart.mono {l l' k k' : List ℕ} (h : Apart created l l') (hk : k ⊆ l) (hk' : k' ⊆ l') :
    Apart created k k' :=
  fun id hid id' hid' => h id (hk hid) id' (hk' hid')

lemma apart_nil (l : List ℕ) : Apart created [] l := fun _ hid => by cases hid

/-- Lanes that are taken or given up stay accounted for. -/
lemma takeLane_accounted (stopping : Bool) (unattempted : List ℕ) (lanes : List (List ℕ)) :
    let taken := takeLane stopping unattempted lanes
    (unattempted ++ lanes.flatten).Perm
      (taken.unattempted ++ (taken.worker.attempting ++ (taken.worker.rest ++
        taken.queue.flatten))) := by
  fun_induction takeLane stopping unattempted lanes with
  | case1 unattempted => exact List.Perm.refl _
  | case2 unattempted queue ih => exact ih
  | case3 unattempted id rest queue hstop ih =>
    rw [List.flatten_cons, ← List.append_assoc]
    exact ih
  | case4 unattempted id rest queue hstop => exact List.Perm.refl _

/-- What is taken is as far apart as the lanes were. -/
lemma takeLane_apart (stopping : Bool) (unattempted : List ℕ) (lanes others : List (List ℕ))
    (h : (lanes ++ others).Pairwise (Apart created)) :
    let taken := takeLane stopping unattempted lanes
    (taken.worker.lane :: taken.queue ++ others).Pairwise (Apart created) := by
  fun_induction takeLane stopping unattempted lanes with
  | case1 unattempted => exact List.Pairwise.cons (fun l _ => apart_nil l) h
  | case2 unattempted queue ih => exact ih h.tail
  | case3 unattempted id rest queue hstop ih => exact ih h.tail
  | case4 unattempted id rest queue hstop => exact h

lemma mem_takeLane {stopping : Bool} {unattempted : List ℕ} {lanes : List (List ℕ)}
    {l : List ℕ} {id : ℕ} (hid : id ∈ l) :
    let taken := takeLane stopping unattempted lanes
    l ∈ taken.worker.lane :: taken.queue → l ∈ lanes := by
  fun_induction takeLane stopping unattempted lanes with
  | case1 unattempted =>
    intro taken hl
    rw [List.mem_singleton.mp hl] at hid
    cases hid
  | case2 unattempted queue ih => exact fun hl => List.mem_cons_of_mem _ (ih hl)
  | case3 unattempted id rest queue hstop ih => exact fun hl => List.mem_cons_of_mem _ (ih hl)
  | case4 unattempted id rest queue hstop => exact fun hl => hl

lemma takeLane_queue (stopping : Bool) (unattempted : List ℕ) (lanes : List (List ℕ)) :
    (takeLane stopping unattempted lanes).queue <:+ lanes.tail := by
  fun_induction takeLane stopping unattempted lanes with
  | case1 unattempted => exact List.suffix_refl _
  | case2 unattempted queue ih => exact ih.trans (List.tail_suffix _)
  | case3 unattempted id rest queue hstop ih => exact ih.trans (List.tail_suffix _)
  | case4 unattempted id rest queue hstop => exact List.suffix_refl _

/-- A worker stops at the end of the queue only. -/
lemma takeLane_worker (stopping : Bool) (unattempted : List ℕ) (lanes : List (List ℕ)) :
    let taken := takeLane stopping unattempted lanes
    (taken.worker = .finished ∧ taken.queue = []) ∨ ∃ id rest, taken.worker = .reading id rest := by
  fun_induction takeLane stopping unattempted lanes with
  | case1 unattempted => exact .inl ⟨rfl, rfl⟩
  | case2 unattempted queue ih => exact ih
  | case3 unattempted id rest queue hstop ih => exact ih
  | case4 unattempted id rest queue hstop => exact .inr ⟨id, rest, rfl⟩

/-- The lanes of claimed deliveries hold them, each endpoint's in one lane. -/
lemma lanesOf_spec (claimed : List ClaimedDelivery)
    (hcreated : ∀ row ∈ claimed, created.get? row.id = some row.endpointId) :
    (claimed.map ClaimedDelivery.id).Perm ((lanesOf claimed).entries.map Prod.snd).flatten ∧
      ∀ endpointId lane, (lanesOf claimed).get? endpointId = some lane →
        ∀ id ∈ lane, created.get? id = some endpointId := by
  induction claimed using List.reverseRecOn with
  | nil => exact ⟨List.Perm.refl _, fun _ _ h => by cases h⟩
  | append_singleton claimed row ih =>
    obtain ⟨hperm, hlanes⟩ := ih fun row' hrow' => hcreated row' (List.mem_append_left _ hrow')
    have hrow := hcreated row (List.mem_append_right _ (List.mem_singleton_self row))
    rw [← List.flatMap_def] at hperm ⊢
    rw [lanesOf, List.foldl_concat]
    refine ⟨?_, fun endpointId lane hlane id hid => ?_⟩
    · rw [List.map_append, List.map_singleton]
      exact (hperm.append_right _).trans (Dict.flatMap_set_concat _ _ _).symm
    · rw [Dict.get?_set] at hlane
      split_ifs at hlane with he
      · cases hlane
        rw [he]
        rcases List.mem_append.mp hid with hid | hid
        · cases hold : (lanesOf claimed).get? row.endpointId with
          | none =>
            rw [lanesOf] at hold
            rw [hold] at hid
            cases hid
          | some old =>
            refine hlanes _ old hold id ?_
            rw [lanesOf] at hold
            rwa [hold] at hid
        · rw [List.mem_singleton.mp hid]
          exact hrow
      · exact hlanes endpointId lane hlane id hid

/-- The lanes of claimed deliveries are apart. -/
lemma lanesOf_apart {claimed : List ClaimedDelivery}
    (hcreated : ∀ row ∈ claimed, created.get? row.id = some row.endpointId) :
    ((lanesOf claimed).entries.map Prod.snd).Pairwise (Apart created) := by
  have hlanes := (lanesOf_spec claimed hcreated).2
  have hkeys : (lanesOf claimed).entries.Pairwise fun p q => p.1 ≠ q.1 :=
    List.pairwise_map.mp (lanesOf claimed).nodup_keys
  rw [List.pairwise_map]
  refine hkeys.imp_of_mem fun {p q} hp hq hne id hid id' hid' => ?_
  rw [hlanes p.1 p.2 (Dict.get?_eq_some_iff.mpr hp) id hid,
    hlanes q.1 q.2 (Dict.get?_eq_some_iff.mpr hq) id' hid']
  exact fun heq => hne (Option.some.inj heq)

end Lanes

/-! ### Ticks -/

namespace Tick

/-- What holds of a tick whose workers are served, for the endpoints of the deliveries. -/
structure Tidy (created : Dict ℕ ℕ) (t : Tick) : Prop where
  nodup : (t.claimed.map ClaimedDelivery.id).Nodup
  known : ∀ row ∈ t.claimed, created.get? row.id = some row.endpointId
  accounted : (t.claimed.map ClaimedDelivery.id).Perm
    (t.attempted ++ (t.unattempted ++ (t.workers.flatMap LaneWorker.rest ++ t.queue.flatten)))
  lanes : ∀ l ∈ t.workers.map LaneWorker.lane ++ t.queue, ∀ id ∈ l,
    id ∈ t.claimed.map ClaimedDelivery.id
  apart : (t.workers.map LaneWorker.lane ++ t.queue).Pairwise (Apart created)
  sent : ∀ a rest, .sending a rest ∈ t.workers →
    created.get? a.deliveryId = some a.delivery.endpointId

/-- A worker that is done found the queue empty. -/
def Idle (t : Tick) : Prop := .finished ∈ t.workers → t.queue = []

variable {created : Dict ℕ ℕ} {t t' : Tick} {worker worker' : LaneWorker} {w : ℕ}

/-- A worker of a tick and the others. -/
lemma exists_others (h : t.workers[w]? = some worker) : ∃ others,
    t.workers.Perm (worker :: others) ∧ ∀ worker', (t.workers.set w worker').Perm (worker' :: others) := by
  obtain ⟨hlt, hget⟩ := List.getElem?_eq_some_iff.mp h
  refine ⟨t.workers.eraseIdx w, ?_, List.set_perm_cons_eraseIdx hlt⟩
  rw [← hget]
  exact (List.getElem_cons_eraseIdx_perm hlt).symm

lemma perm_lanes {others : List LaneWorker} (h : t.workers.Perm (worker :: others)) :
    (t.workers.map LaneWorker.lane ++ t.queue).Perm
      (worker.lane :: t.queue ++ others.map LaneWorker.lane) := by
  have hmap := (h.map LaneWorker.lane).append_right t.queue
  rw [List.map_cons, List.cons_append] at hmap
  exact hmap.trans (List.Perm.cons _ List.perm_append_comm)

lemma perm_rests {others : List LaneWorker} (h : t.workers.Perm (worker :: others)) :
    (t.attempted ++ (t.unattempted ++ (t.workers.flatMap LaneWorker.rest ++ t.queue.flatten))).Perm
      (t.attempted ++ (t.unattempted ++ (worker.rest ++ t.queue.flatten)) ++
        others.flatMap LaneWorker.rest) := by
  have hrests := h.flatMap_right LaneWorker.rest
  rw [List.flatMap_cons] at hrests
  have hqueue : (t.workers.flatMap LaneWorker.rest ++ t.queue.flatten).Perm
      (worker.rest ++ t.queue.flatten ++ others.flatMap LaneWorker.rest) := by
    refine (hrests.append_right _).trans ?_
    rw [List.append_assoc, List.append_assoc]
    exact List.Perm.append_left _ List.perm_append_comm
  rw [List.append_assoc, List.append_assoc]
  exact List.Perm.append_left _ (List.Perm.append_left _ hqueue)

/-- One worker of a tick moves, and takes nothing from the others. -/
lemma Tidy.move (h : t.Tidy created) (hworker : t.workers[w]? = some worker)
    (hclaimed : t'.claimed = t.claimed) (hworkers : t'.workers = t.workers.set w worker')
    (haccounted : (t.attempted ++ (t.unattempted ++ (worker.rest ++ t.queue.flatten))).Perm
      (t'.attempted ++ (t'.unattempted ++ (worker'.rest ++ t'.queue.flatten))))
    (hapart : ∀ others, (worker.lane :: t.queue ++ others).Pairwise (Apart created) →
      (worker'.lane :: t'.queue ++ others).Pairwise (Apart created))
    (hlanes : ∀ l ∈ worker'.lane :: t'.queue, ∀ id ∈ l, ∃ l' ∈ worker.lane :: t.queue, id ∈ l')
    (hsent : ∀ a rest, worker' = .sending a rest →
      created.get? a.deliveryId = some a.delivery.endpointId) : t'.Tidy created := by
  obtain ⟨others, hbefore, hset⟩ := exists_others hworker
  have hafter : t'.workers.Perm (worker' :: others) := hworkers ▸ hset worker'
  refine ⟨hclaimed ▸ h.nodup, hclaimed ▸ h.known, ?_, ?_, ?_, ?_⟩
  · rw [hclaimed]
    refine (h.accounted.trans (perm_rests hbefore)).trans ?_
    exact (haccounted.append_right _).trans (perm_rests hafter).symm
  · intro l hl id hid
    rw [hclaimed]
    rw [(perm_lanes hafter).mem_iff, List.mem_append] at hl
    rcases hl with hl | hl
    · obtain ⟨l', hl', hid'⟩ := hlanes l hl id hid
      exact h.lanes l' ((perm_lanes hbefore).mem_iff.mpr (List.mem_append_left _ hl')) id hid'
    · exact h.lanes l ((perm_lanes hbefore).mem_iff.mpr (List.mem_append_right _ hl)) id hid
  · rw [(perm_lanes hafter).pairwise_iff Apart.symm]
    exact hapart _ (((perm_lanes hbefore).pairwise_iff Apart.symm).mp h.apart)
  · intro a rest ha
    rw [hafter.mem_iff, List.mem_cons] at ha
    rcases ha with ha | ha
    · exact hsent a rest ha.symm
    · exact h.sent a rest (hbefore.mem_iff.mpr (List.mem_cons_of_mem _ ha))

/-- A worker goes on with some rest of its lane, the others of which are given up. -/
lemma Tidy.advance (h : t.Tidy created) (hworker : t.workers[w]? = some worker)
    (stopping : Bool) {unattempted rest : List ℕ}
    (hrest : unattempted ++ rest = t.unattempted ++ worker.rest) (hsub : rest ⊆ worker.rest) :
    ({ t with unattempted := unattempted }.advance stopping w rest).Tidy created := by
  have hrest' : rest ⊆ worker.lane := fun id hid => List.mem_append_right _ (hsub hid)
  have htaken := takeLane_worker stopping unattempted (rest :: t.queue)
  refine h.move hworker rfl rfl ?_ ?_ ?_ ?_
  · change (t.attempted ++ (t.unattempted ++ (worker.rest ++ t.queue.flatten))).Perm
      (t.attempted ++ (takeLane stopping unattempted (rest :: t.queue)).worker.attempting ++
        ((takeLane stopping unattempted (rest :: t.queue)).unattempted ++ _))
    rw [List.append_assoc]
    refine List.Perm.append_left _ ?_
    have haccounted := takeLane_accounted stopping unattempted (rest :: t.queue)
    rw [List.flatten_cons, ← List.append_assoc, hrest, List.append_assoc] at haccounted
    refine haccounted.trans ?_
    rw [← List.append_assoc, ← List.append_assoc (LaneWorker.attempting _)]
    exact List.perm_append_comm.append_right _
  · intro others hpairwise
    refine takeLane_apart stopping unattempted _ _ ?_
    rw [List.cons_append, List.pairwise_cons] at hpairwise ⊢
    exact ⟨fun l hl => (hpairwise.1 l hl).mono hrest' (List.Subset.refl _), hpairwise.2⟩
  · intro l hl id hid
    rcases List.mem_cons.mp (mem_takeLane hid hl) with rfl | hl
    · exact ⟨_, List.mem_cons_self, hrest' hid⟩
    · exact ⟨l, List.mem_cons_of_mem _ hl, hid⟩
  · intro a rest' ha
    rcases htaken with ⟨hfinished, -⟩ | ⟨id, rest', hreading⟩
    · rw [hfinished] at ha
      cases ha
    · rw [hreading] at ha
      cases ha

/-- What a worker comes to leaves the queue empty when it finds nothing in it. -/
lemma idle_takeLane {workers : List LaneWorker} {queue : List (List ℕ)}
    (h : .finished ∈ workers → queue = []) (stopping : Bool) (unattempted rest : List ℕ) :
    let taken := takeLane stopping unattempted (rest :: queue)
    .finished ∈ taken.worker :: workers → taken.queue = [] := by
  intro taken hfinished
  rcases List.mem_cons.mp hfinished with hfinished | hfinished
  · rcases takeLane_worker stopping unattempted (rest :: queue) with ⟨-, hqueue⟩ | ⟨id, rest', hread⟩
    · exact hqueue
    · cases hfinished.trans hread
  · have hsuffix : taken.queue <:+ queue := takeLane_queue stopping unattempted (rest :: queue)
    rw [h hfinished] at hsuffix
    exact List.suffix_nil.mp hsuffix

lemma Idle.advance (h : t.Idle) (stopping : Bool) (w : ℕ) (unattempted rest : List ℕ) :
    ({ t with unattempted := unattempted }.advance stopping w rest).Idle := by
  intro hfinished
  refine idle_takeLane h stopping unattempted rest ?_
  rcases List.mem_or_eq_of_mem_set hfinished with hfinished | hfinished
  · exact List.mem_cons_of_mem _ hfinished
  · exact List.mem_cons.mpr (.inl hfinished)

/-- A worker that starts. -/
lemma Tidy.startWorker (h : t.Tidy created) (stopping : Bool) :
    (t.startWorker stopping).Tidy created := by
  have hlast : ∀ f : LaneWorker → List ℕ, f .finished = [] →
      (t.workers ++ [LaneWorker.finished]).flatMap f = t.workers.flatMap f := by
    intro f hf
    rw [List.flatMap_append, List.flatMap_singleton, hf, List.append_nil]
  have hlanes : (t.workers ++ [LaneWorker.finished]).map LaneWorker.lane ++ t.queue =
      t.workers.map LaneWorker.lane ++ ([] :: t.queue) := by
    rw [List.map_append, List.append_assoc]
    rfl
  have hmore : Tidy created { t with workers := t.workers ++ [LaneWorker.finished] } := by
    refine ⟨h.nodup, h.known, ?_, ?_, ?_, ?_⟩
    · change List.Perm _ (t.attempted ++ (t.unattempted ++ (_ ++ t.queue.flatten)))
      rw [hlast _ rfl]
      exact h.accounted
    · intro l hl id hid
      change l ∈ List.map _ _ ++ t.queue at hl
      rw [hlanes, List.perm_middle.mem_iff, List.mem_cons] at hl
      rcases hl with rfl | hl
      · cases hid
      · exact h.lanes l hl id hid
    · change (List.map _ _ ++ t.queue).Pairwise (Apart created)
      rw [hlanes, List.perm_middle.pairwise_iff Apart.symm]
      exact List.Pairwise.cons (fun l _ => apart_nil l) h.apart
    · intro a rest ha
      rcases List.mem_append.mp ha with ha | ha
      · exact h.sent a rest ha
      · cases List.mem_singleton.mp ha
  have hnew : (t.workers ++ [LaneWorker.finished])[t.workers.length]? = some .finished := by
    simp
  exact hmore.advance hnew stopping rfl (List.Subset.refl _)

lemma Idle.startWorker (h : t.Idle) (stopping : Bool) : (t.startWorker stopping).Idle := by
  intro hfinished
  refine idle_takeLane h stopping t.unattempted [] ?_
  have hset : (t.startWorker stopping).workers = t.workers ++
      [(takeLane stopping t.unattempted ([] :: t.queue)).worker] := by
    change (t.workers ++ [LaneWorker.finished]).set t.workers.length _ = _
    rw [List.set_append_right _ _ (Nat.le_refl _), Nat.sub_self]
    rfl
  rw [hset, List.perm_append_comm.mem_iff] at hfinished
  exact hfinished

/-- The workers that start are reading or done, and there is one if there is a lane. -/
lemma startWorkers_spec (stopping : Bool) (n : ℕ) (h : t.Tidy created) (hidle : t.Idle)
    (hthrew : .threw ∉ t.workers) :
    let t' := startWorkers stopping n t
    t'.Tidy created ∧ t'.Idle ∧ .threw ∉ t'.workers ∧ t'.phase = t.phase ∧
      t'.workers.length = t.workers.length + n := by
  induction n generalizing t with
  | zero => exact ⟨h, hidle, hthrew, rfl, rfl⟩
  | succ n ih =>
    have hworkers : (t.startWorker stopping).workers = (t.workers ++ [LaneWorker.finished]).set
      t.workers.length (takeLane stopping t.unattempted ([] :: t.queue)).worker := rfl
    obtain ⟨htidy, hidle', hthrew', hphase, hlength⟩ :=
      ih (h.startWorker stopping) (hidle.startWorker stopping) (by
        intro hmem
        rw [hworkers] at hmem
        rcases List.mem_or_eq_of_mem_set hmem with hmem | hmem
        · rcases List.mem_append.mp hmem with hmem | hmem
          · exact hthrew hmem
          · cases List.mem_singleton.mp hmem
        · rcases takeLane_worker stopping t.unattempted ([] :: t.queue) with
            ⟨hworker, -⟩ | ⟨id, rest, hworker⟩
          · cases hmem.trans hworker
          · cases hmem.trans hworker)
    refine ⟨htidy, hidle', hthrew', hphase, ?_⟩
    change (startWorkers stopping n (t.startWorker stopping)).workers.length = _
    rw [hlength, hworkers, List.length_set, List.length_append, List.length_singleton]
    omega

/-- What holds of a tick in a run whose throws are the last of their ticks. -/
structure Good (created : Dict ℕ ℕ) (t : Tick) : Prop where
  tidy : t.Tidy created
  idle : t.Idle
  fresh : t.phase = .claiming → t = {}
  served : t.workers = [] → t.queue = []
  quiet : t.phase ≠ .serving ∨ .threw ∈ t.workers →
    t.queue = [] ∧ ∀ worker ∈ t.workers, worker.lane = []
  released : ∀ ids, t.phase = .releasing ids ∨ t.phase = .ended ids → t.unattempted = ids

lemma Good.new : Good created {} where
  tidy := by
    exact ⟨List.nodup_nil, fun _ h => (by cases h), List.Perm.refl _, fun _ h => (by cases h),
      List.Pairwise.nil, fun _ _ h => (by cases h)⟩
  idle := fun _ => rfl
  fresh := fun _ => rfl
  served := fun _ => rfl
  quiet := fun _ => ⟨rfl, fun _ h => by cases h⟩
  released := fun _ h => by rcases h with h | h <;> cases h

lemma Good.serving (htidy : t.Tidy created) (hidle : t.Idle) (hphase : t.phase = .serving)
    (hthrew : .threw ∉ t.workers) (hserved : t.workers = [] → t.queue = []) : t.Good created where
  tidy := htidy
  idle := hidle
  fresh h := by rw [hphase] at h; cases h
  served := hserved
  quiet h := (h.elim (fun h => h hphase) hthrew).elim
  released ids h := by rcases h with h | h <;> (rw [hphase] at h; cases h)

/-- A tick with a worker under way is served, and none of its workers threw. -/
lemma Good.active (h : t.Good created) (hworker : t.workers[w]? = some worker)
    (hlane : worker.lane ≠ []) : t.phase = .serving ∧ .threw ∉ t.workers := by
  have hquiet : ¬ (t.phase ≠ .serving ∨ .threw ∈ t.workers) :=
    fun hquiet => hlane ((h.quiet hquiet).2 worker (List.mem_of_getElem? hworker))
  rw [not_or, not_not] at hquiet
  exact hquiet

/-- The start of a tick with its claims. -/
lemma Good.serve (stopping : Bool) (concurrency : ℕ) {claimed : List ClaimedDelivery}
    (hnodup : (claimed.map ClaimedDelivery.id).Nodup)
    (hknown : ∀ row ∈ claimed, created.get? row.id = some row.endpointId) :
    (Tick.serve {} stopping concurrency claimed).Good created := by
  obtain ⟨hperm, -⟩ := lanesOf_spec claimed hknown
  have htidy : Tidy created
      { phase := .serving, claimed := claimed, queue := (lanesOf claimed).entries.map Prod.snd } := by
    refine ⟨hnodup, hknown, hperm, fun l hl id hid => ?_, lanesOf_apart hknown,
      fun _ _ h => (by cases h)⟩
    exact hperm.mem_iff.mpr (List.mem_flatten.mpr ⟨l, hl, hid⟩)
  obtain ⟨htidy', hidle, hthrew, hphase, hlength⟩ := startWorkers_spec stopping
    (min (max 1 concurrency) ((lanesOf claimed).entries.map Prod.snd).length) htidy
    (fun h => by cases h) (fun h => by cases h)
  refine Good.serving htidy' hidle hphase hthrew fun hnone => ?_
  have hzero : min (max 1 concurrency) ((lanesOf claimed).entries.map Prod.snd).length = 0 := by
    have hcount := congrArg List.length hnone
    change (startWorkers stopping _ _).workers.length = 0 at hcount
    rw [hlength] at hcount
    simpa using hcount
  have hempty : (lanesOf claimed).entries.map Prod.snd = [] := by
    rw [← List.length_eq_zero_iff]
    omega
  rw [Tick.serve]
  dsimp only
  rw [hzero]
  exact hempty

/-- A worker that is under way goes on. -/
lemma Good.advance (h : t.Good created) (hworker : t.workers[w]? = some worker)
    (hlane : worker.lane ≠ []) (stopping : Bool) {unattempted rest : List ℕ}
    (hrest : unattempted ++ rest = t.unattempted ++ worker.rest) (hsub : rest ⊆ worker.rest) :
    ({ t with unattempted := unattempted }.advance stopping w rest).Good created := by
  obtain ⟨hphase, hthrew⟩ := h.active hworker hlane
  refine Good.serving (h.tidy.advance hworker stopping hrest hsub)
    (h.idle.advance stopping w unattempted rest) hphase ?_ ?_
  · intro hmem
    rcases List.mem_or_eq_of_mem_set hmem with hmem | hmem
    · exact hthrew hmem
    · rcases takeLane_worker stopping unattempted (rest :: t.queue) with
        ⟨hfinished, -⟩ | ⟨id, rest', hreading⟩
      · cases hmem.trans hfinished
      · cases hmem.trans hreading
  · intro hnone
    obtain ⟨hlt, -⟩ := List.getElem?_eq_some_iff.mp hworker
    have hcount := congrArg List.length hnone
    change (t.workers.set w _).length = 0 at hcount
    rw [List.length_set] at hcount
    omega

/-- A call of `deliverOne` has returned. -/
lemma Good.afterOutcome (h : t.Good created) (hworker : t.workers[w]? = some worker)
    (hlane : worker.lane ≠ []) (stopping : Bool) (outcome : DeliveryOutcome) :
    (t.afterOutcome stopping w worker.rest outcome).Good created := by
  rw [Tick.afterOutcome.eq_def]
  split
  · exact h.advance hworker hlane stopping (List.append_nil _) (List.nil_subset _)
  · exact h.advance hworker hlane stopping rfl (List.Subset.refl _)

/-- A wait of a call of `deliverOne` is over. -/
lemma Good.setWorker (h : t.Good created) (hworker : t.workers[w]? = some worker)
    (hlane : worker.lane ≠ []) (hattempting : worker'.attempting = worker.attempting)
    (hrest : worker'.rest = worker.rest) (hsent : ∀ a rest, worker' = .sending a rest →
      created.get? a.deliveryId = some a.delivery.endpointId) :
    (t.setWorker w worker').Good created := by
  obtain ⟨hphase, hthrew⟩ := h.active hworker hlane
  have hlane' : worker'.lane = worker.lane := by
    rw [LaneWorker.lane, LaneWorker.lane, hattempting, hrest]
  have hbusy : ∀ other, other.lane = [] → other ∈ t.workers.set w worker' → other ∈ t.workers := by
    intro other hother hmem
    rcases List.mem_or_eq_of_mem_set hmem with hmem | rfl
    · exact hmem
    · exact absurd (hlane'.symm.trans hother) hlane
  refine Good.serving ?_ (fun hmem => h.idle (hbusy _ rfl hmem)) hphase
    (fun hmem => hthrew (hbusy _ rfl hmem)) (fun hnone => h.served ?_)
  · refine h.tidy.move hworker rfl rfl ?_ (fun others hpairwise => ?_) (fun l hl id hid => ?_) hsent
    · rw [hrest]
      exact List.Perm.refl _
    · rw [hlane']
      exact hpairwise
    · rw [hlane'] at hl
      exact ⟨l, hl, hid⟩
  · exact (List.set_eq_nil_iff _ _).mp hnone

/-- A call of `deliverOne` throws as the last thing of its tick. -/
lemma Good.throw (h : t.Good created) (hworker : t.workers[w]? = some worker)
    (hlane : worker.lane ≠ []) (hrest : worker.rest = []) (hqueue : t.queue = [])
    (hothers : ∀ v other, t.workers[v]? = some other → v ≠ w → other.lane = []) :
    (t.setWorker w .threw).Good created := by
  obtain ⟨hphase, -⟩ := h.active hworker hlane
  have htidy : (t.setWorker w .threw).Tidy created := by
    refine h.tidy.move hworker rfl rfl ?_ (fun others hpairwise => ?_) (fun l hl id hid => ?_)
      (fun _ _ ha => by cases ha)
    · rw [hrest]
      exact List.Perm.refl _
    · rw [List.cons_append, List.pairwise_cons] at hpairwise ⊢
      exact ⟨fun l _ => apart_nil l, hpairwise.2⟩
    · rcases List.mem_cons.mp hl with rfl | hl
      · cases hid
      · exact ⟨l, List.mem_cons_of_mem _ hl, hid⟩
  refine ⟨htidy, fun _ => hqueue, fun hclaiming => ?_, fun _ => hqueue,
    fun _ => ⟨hqueue, fun other hother => ?_⟩, fun ids hids => ?_⟩
  · cases hphase.symm.trans hclaiming
  · obtain ⟨v, hv⟩ := List.mem_iff_getElem?.mp hother
    change (t.workers.set w .threw)[v]? = some other at hv
    rw [List.getElem?_set] at hv
    split_ifs at hv with hvw
    · cases hv
      rfl
    · exact hothers v other hv (Ne.symm hvw)
  · rcases hids with hids | hids <;> cases hphase.symm.trans hids

/-- A tick whose workers are settled has nothing left. -/
lemma Good.settled (h : t.Good created) (hsettled : t.isSettled) :
    t.queue = [] ∧ ∀ worker ∈ t.workers, worker.lane = [] := by
  rw [isSettled, Bool.or_eq_true, decide_eq_true_eq, List.all_eq_true] at hsettled
  rcases hsettled with hthrew | hfinished
  · exact h.quiet (.inr hthrew)
  · have hall : ∀ worker ∈ t.workers, worker = .finished :=
      fun worker hmem => of_decide_eq_true (hfinished worker hmem)
    refine ⟨?_, fun worker hmem => by rw [hall worker hmem]; rfl⟩
    cases hworkers : t.workers with
    | nil => exact h.served hworkers
    | cons worker workers =>
      have hmem : worker ∈ t.workers := by rw [hworkers]; exact List.mem_cons_self
      exact h.idle (hall worker hmem ▸ hmem)

/-- A tick that is not served any more changes its phase. -/
lemma Good.setPhase (h : t.Good created)
    (hquiet : t.queue = [] ∧ ∀ worker ∈ t.workers, worker.lane = []) {phase : TickPhase}
    (hphase : phase = .releasing t.unattempted ∨ phase = .ended t.unattempted) :
    Good created { t with phase := phase } where
  tidy := ⟨h.tidy.nodup, h.tidy.known, h.tidy.accounted, h.tidy.lanes, h.tidy.apart, h.tidy.sent⟩
  idle := h.idle
  fresh hclaiming := by
    rcases hphase with rfl | rfl <;> cases hclaiming
  served := h.served
  quiet _ := hquiet
  released ids hids := by
    rcases hphase with rfl | rfl <;> rcases hids with hids | hids <;> cases hids <;> rfl

/-- A tick that is over has attempted every claim once or released it. -/
lemma Good.attempted_or_released (h : t.Good created) {released : List ℕ}
    (hended : t.phase = .ended released) :
    (t.claimed.map ClaimedDelivery.id).Perm (t.attempted ++ released) := by
  obtain ⟨hqueue, hlanes⟩ := h.quiet (.inl (by rw [hended]; exact fun h => by cases h))
  have hrests : t.workers.flatMap LaneWorker.rest = [] := by
    rw [List.flatMap_eq_nil_iff]
    intro worker hmem
    exact (List.append_eq_nil_iff.mp (hlanes worker hmem)).2
  have haccounted := h.tidy.accounted
  rw [h.released released (.inr hended), hqueue, hrests, List.flatten_nil, List.append_nil,
    List.append_nil] at haccounted
  exact haccounted

/-- New deliveries change nothing for a tick. -/
lemma Good.mono (h : t.Good created) {created' : Dict ℕ ℕ}
    (hcreated : ∀ id endpointId, created.get? id = some endpointId →
      created'.get? id = some endpointId) : t.Good created' := by
  have hknown : ∀ l ∈ t.workers.map LaneWorker.lane ++ t.queue, ∀ id ∈ l,
      created'.get? id = created.get? id := by
    intro l hl id hid
    obtain ⟨row, hrow, rfl⟩ := List.mem_map.mp (h.tidy.lanes l hl id hid)
    rw [h.tidy.known row hrow, hcreated _ _ (h.tidy.known row hrow)]
  refine ⟨⟨h.tidy.nodup, fun row hrow => hcreated _ _ (h.tidy.known row hrow), h.tidy.accounted,
    h.tidy.lanes, ?_, fun a rest ha => hcreated _ _ (h.tidy.sent a rest ha)⟩, h.idle, h.fresh,
    h.served, h.quiet, h.released⟩
  refine h.tidy.apart.imp_of_mem fun {l l'} hl hl' hapart id hid id' hid' => ?_
  rw [hknown l hl id hid, hknown l' hl' id' hid']
  exact hapart id hid id' hid'

end Tick

/-! ### Tables -/

namespace WebhookTables

variable {db db' : WebhookTables}

/-- The deliveries go to the endpoints that they were created for. -/
def Known (db : WebhookTables) : Prop :=
  ∀ id row, db.deliveries.get? id = some row → db.created.get? id = some row.endpointId

/-- The tables with some rows. -/
def ofRows (deliveries : Dict ℕ WebhookDelivery) (endpoints : Dict ℕ WebhookEndpoint) :
    WebhookTables where
  deliveries := deliveries
  endpoints := endpoints
  created := deliveries.mapValues WebhookDelivery.endpointId

lemma known_ofRows (deliveries : Dict ℕ WebhookDelivery) (endpoints : Dict ℕ WebhookEndpoint) :
    (ofRows deliveries endpoints).Known := by
  intro id row hrow
  change (deliveries.mapValues _).get? id = _
  rw [Dict.get?_mapValues]
  exact congrArg (Option.map WebhookDelivery.endpointId) hrow

lemma Known.reschedule (h : db.Known) (ids : List ℕ) (at' : ℕ) : (db.reschedule ids at').Known := by
  intro id row hrow
  rw [WebhookTables.reschedule, Dict.get?_mapEntries, Option.map_eq_some_iff] at hrow
  obtain ⟨old, hold, rfl⟩ := hrow
  rw [apply_ite WebhookDelivery.endpointId, ite_self]
  exact h id old hold

lemma Known.commitAttempt (h : db.Known) {a : DeliveryAttempt} {res : Option WebhookFetchResult}
    {nowDate : ℕ} (hcommit : db.commitAttempt a res nowDate = some db') :
    db'.Known ∧ db'.created = db.created := by
  rw [WebhookTables.commitAttempt, Option.bind_eq_some_iff] at hcommit
  obtain ⟨delivery, hdelivery, hcommit⟩ := hcommit
  obtain ⟨endpoint, -, rfl⟩ := Option.map_eq_some_iff.mp hcommit
  refine ⟨fun id row hrow => ?_, rfl⟩
  rw [Dict.get?_set] at hrow
  split_ifs at hrow with hid
  · cases hrow
    rw [hid]
    exact h a.deliveryId delivery hdelivery
  · exact h id row hrow

lemma Known.enqueue (h : db.Known) {id endpointId now : ℕ}
    (henqueue : db.enqueue id endpointId now = some db') : db'.Known ∧
      ∀ id' endpointId', db.created.get? id' = some endpointId' →
        db'.created.get? id' = some endpointId' := by
  rw [WebhookTables.enqueue] at henqueue
  split_ifs at henqueue with hnew
  cases henqueue
  rw [Bool.or_eq_true, not_or] at hnew
  have hne : ∀ id' endpointId', db.created.get? id' = some endpointId' → id' ≠ id := by
    rintro id' endpointId' hcreated rfl
    exact hnew.1 (Dict.has_iff.mpr (Dict.mem_keys_iff.mpr ⟨endpointId', hcreated⟩))
  refine ⟨fun id' row hrow => ?_, fun id' endpointId' hcreated => ?_⟩
  · rw [Dict.get?_set] at hrow ⊢
    split_ifs at hrow ⊢ with hid
    · cases hrow
      rfl
    · exact h id' row hrow
  · rw [Dict.get?_set_of_ne _ _ (hne id' endpointId' hcreated)]
    exact hcreated

lemma Known.deleteEndpoint (h : db.Known) (endpointId : ℕ) : (db.deleteEndpoint endpointId).Known := by
  intro id row hrow
  rw [WebhookTables.deleteEndpoint, Dict.get?_eq_some_iff, Dict.entries_filter, List.mem_filter,
    ← Dict.get?_eq_some_iff] at hrow
  exact h id row hrow.1

lemma setDisabled_eq (db : WebhookTables) (endpointId : ℕ) (disabledAt : Option ℕ) :
    (db.setDisabled endpointId disabledAt).deliveries = db.deliveries ∧
      (db.setDisabled endpointId disabledAt).created = db.created := by
  rw [setDisabled]
  split <;> exact ⟨rfl, rfl⟩

/-- Claimed deliveries are different rows. -/
lemma claimDueDeliveries_spec (h : db.Known) (now : ℕ) (locked : List ℕ) (batchSize leaseMs : ℕ) :
    let claimed := (db.claimDueDeliveries now locked batchSize leaseMs).2
    (claimed.map ClaimedDelivery.id).Nodup ∧
      ∀ row ∈ claimed, db.created.get? row.id = some row.endpointId := by
  intro claimed
  have hdue : (db.dueDeliveries now locked batchSize).Subperm db.deliveries.entries :=
    (List.take_sublist _ _).subperm.trans
      ((List.perm_insertionSort _ _).subperm.trans List.filter_sublist.subperm)
  have hids : claimed.map ClaimedDelivery.id =
      (db.dueDeliveries now locked batchSize).map Prod.fst := List.map_map
  refine ⟨?_, fun row hrow => ?_⟩
  · rw [hids]
    obtain ⟨l, hperm, hsub⟩ := hdue
    exact (hperm.map Prod.fst).nodup_iff.mp (db.deliveries.nodupKeys.sublist (hsub.map _))
  · obtain ⟨p, hp, rfl⟩ := List.mem_map.mp hrow
    exact h p.1 p.2 (Dict.get?_eq_some_iff.mpr (hdue.subset hp))

/-- An attempt goes to the endpoint that its delivery was created for. -/
lemma Known.readDelivery (h : db.Known) {id : ℕ} {a : DeliveryAttempt}
    (hread : db.readDelivery id = .inr a) :
    a.deliveryId = id ∧ db.created.get? a.deliveryId = some a.delivery.endpointId := by
  rw [WebhookTables.readDelivery] at hread
  split at hread
  · cases hread
  · rename_i delivery hdelivery
    split at hread
    · cases hread
    · split at hread <;> cases hread
      exact ⟨rfl, h _ delivery hdelivery⟩

end WebhookTables

/-! ### The process -/

namespace WebhookWorker

structure Good (s : WebhookWorker) : Prop where
  rows : s.db.Known
  ticks : ∀ (i : ℕ) (t : Tick), s.ticks[i]? = some t → t.Good s.db.created
  one : ∀ (i : ℕ) (t : Tick), s.ticks[i]? = some t → (∀ released, t.phase ≠ .ended released) → s.running = some i

/-- A call of `deliverOne` throws only when it was for the last delivery of its lane, no lane is
queued and no other call of its tick is under way; and releases succeed. -/
def Orderly (s : WebhookWorker) : WorkerEvent → Prop
  | .fail i w => ∀ t worker, s.ticks[i]? = some t → t.workers[w]? = some worker →
      worker.rest = [] ∧ t.queue = [] ∧
        ∀ v other, t.workers[v]? = some other → v ≠ w → other.lane = []
  | .releaseFails _ => False
  | _ => True

variable {opts : WorkerOptions} {s s' : WebhookWorker} {i w : ℕ} {t t' : Tick}

/-- The tables change, and keep the deliveries' endpoints. -/
lemma Good.setDb (h : s.Good) {db : WebhookTables} (hrows : db.Known)
    (hcreated : ∀ id endpointId, s.db.created.get? id = some endpointId →
      db.created.get? id = some endpointId) : Good { s with db := db } :=
  ⟨hrows, fun j t' ht' => (h.ticks j t' ht').mono hcreated, h.one⟩

/-- A tick changes, and is not over. -/
lemma Good.setTick (h : s.Good) (ht : s.ticks[i]? = some t)
    (hended : ∀ released, t.phase ≠ .ended released) (hgood : t'.Good s.db.created) :
    (s.setTick i t').Good := by
  refine ⟨h.rows, fun j u hu => ?_, fun j u hu hopen => ?_⟩ <;>
    rw [WebhookWorker.setTick, List.getElem?_set] at hu <;> split_ifs at hu with hij
  · cases hu
    exact hgood
  · exact h.ticks j u hu
  · rw [← hij]
    exact h.one i t ht hended
  · exact h.one j u hu hopen

/-- A tick is over. -/
lemma Good.endTick (h : s.Good) (ht : s.ticks[i]? = some t)
    (hended : ∀ released, t.phase ≠ .ended released) {released : List ℕ}
    (hgood : Tick.Good s.db.created { t with phase := .ended released }) :
    (s.endTick i t released).Good := by
  refine ⟨h.rows, fun j u hu => ?_, fun j u hu hopen => ?_⟩ <;>
    rw [WebhookWorker.endTick, WebhookWorker.setTick, List.getElem?_set] at hu <;>
    split_ifs at hu with hij
  · cases hu
    exact hgood
  · exact h.ticks j u hu
  · cases hu
    exact absurd rfl (hopen released)
  · have hboth := (h.one i t ht hended).symm.trans (h.one j u hu hopen)
    exact absurd (Option.some.inj hboth) hij

lemma onTick_eq {f : Tick → Option WebhookWorker} (h : s.onTick i f = some s') :
    ∃ t, s.ticks[i]? = some t ∧ f t = some s' :=
  Option.bind_eq_some_iff.mp h

lemma onWorker_eq {e : WorkerEvent} (h : s.onWorker i w e = some s') : ∃ t worker,
    s.ticks[i]? = some t ∧ t.workers[w]? = some worker ∧ s.workerStep i w t worker e = some s' := by
  obtain ⟨t, ht, h⟩ := onTick_eq h
  obtain ⟨worker, hworker, h⟩ := Option.bind_eq_some_iff.mp h
  exact ⟨t, worker, ht, hworker, h⟩

/-- The steps of a worker, save its throw. -/
lemma Good.workerStep (h : s.Good) (ht : s.ticks[i]? = some t) {worker : LaneWorker}
    (hworker : t.workers[w]? = some worker) {e : WorkerEvent} (he : ∀ i' w', e ≠ .fail i' w')
    (hstep : s.workerStep i w t worker e = some s') : s'.Good := by
  have hgood := h.ticks i t ht
  have hopen : worker.lane ≠ [] → ∀ released, t.phase ≠ .ended released := by
    intro hlane released hended
    cases (hgood.active hworker hlane).1.symm.trans hended
  rw [WebhookWorker.workerStep.eq_def] at hstep
  split at hstep
  · rename_i id rest _ _
    have hlane : (LaneWorker.reading id rest).lane ≠ [] := List.cons_ne_nil _ _
    split at hstep
    · cases hstep
      exact h.setTick ht (hopen hlane) (hgood.afterOutcome hworker hlane _ _)
    · rename_i attempt hread
      obtain ⟨hid, hcreated⟩ := h.rows.readDelivery hread
      cases hstep
      refine h.setTick ht (hopen hlane) (hgood.setWorker hworker hlane ?_ rfl ?_)
      · exact congrArg (fun id => [id]) hid
      · rintro a rest' ha
        cases ha
        exact hcreated
  · rename_i attempt rest _ _ res
    have hlane : (LaneWorker.sending attempt rest).lane ≠ [] := List.cons_ne_nil _ _
    cases hstep
    exact h.setTick ht (hopen hlane) (hgood.setWorker hworker hlane rfl rfl fun a rest' ha => by
      cases ha)
  · rename_i attempt res rest _ _ nowDate
    have hlane : (LaneWorker.committing attempt res rest).lane ≠ [] := List.cons_ne_nil _ _
    obtain ⟨db, hcommit, rfl⟩ := Option.map_eq_some_iff.mp hstep
    obtain ⟨hrows, hcreated⟩ := h.rows.commitAttempt hcommit
    have hdb : Good { s with db := db } := h.setDb hrows fun id endpointId hid => hcreated ▸ hid
    exact hdb.setTick ht (hopen hlane)
      ((hdb.ticks i t ht).afterOutcome hworker hlane _ _)
  · exact absurd rfl (he _ _)
  · exact absurd rfl (he _ _)
  · cases hstep

/-- A throw that leaves nothing of its tick undone. -/
lemma Good.fail (h : s.Good) (horderly : s.Orderly (.fail i w)) (ht : s.ticks[i]? = some t)
    {worker : LaneWorker} (hworker : t.workers[w]? = some worker)
    (hstep : s.workerStep i w t worker (.fail i w) = some s') : s'.Good := by
  obtain ⟨hrest, hqueue, hothers⟩ := horderly t worker ht hworker
  have hgood := h.ticks i t ht
  have hthrow : ∀ hlane : worker.lane ≠ [],
      some (s.setTick i (t.setWorker w .threw)) = some s' → s'.Good := by
    rintro hlane ⟨⟩
    refine h.setTick ht (fun released hended => ?_)
      (hgood.throw hworker hlane hrest hqueue hothers)
    cases (hgood.active hworker hlane).1.symm.trans hended
  cases worker with
  | reading id rest => exact hthrow (List.cons_ne_nil _ _) hstep
  | committing a res rest => exact hthrow (List.cons_ne_nil _ _) hstep
  | sending a rest => cases hstep
  | finished => cases hstep
  | threw => cases hstep

/-- Every orderly step keeps the invariant. -/
lemma Good.next (h : s.Good) {e : WorkerEvent} (horderly : s.Orderly e)
    (hnext : s.next opts e = some s') : s'.Good := by
  cases e with
  | timer =>
    rw [WebhookWorker.next] at hnext
    split_ifs at hnext with hskip
    · cases hnext
      exact h
    · cases hnext
      rw [Bool.or_eq_true, not_or, Option.not_isSome_iff_eq_none] at hskip
      have hcases : ∀ (j : ℕ) (u : Tick), (s.ticks ++ [({} : Tick)])[j]? = some u →
          s.ticks[j]? = some u ∨ (j = s.ticks.length ∧ u = ({} : Tick)) := by
        intro j u hu
        rw [List.getElem?_append] at hu
        split_ifs at hu with hj
        · exact .inl hu
        · rw [List.getElem?_singleton] at hu
          split_ifs at hu with hzero
          exact .inr ⟨by omega, (Option.some.inj hu).symm⟩
      refine ⟨h.rows, fun j u hu => ?_, fun j u hu hopen => ?_⟩
      · rcases hcases j u hu with hu | ⟨-, rfl⟩
        · exact h.ticks j u hu
        · exact Tick.Good.new
      · rcases hcases j u hu with hu | ⟨rfl, -⟩
        · cases hskip.2.symm.trans (h.one j u hu hopen)
        · rfl
  | claim i now locked =>
    rw [WebhookWorker.next] at hnext
    obtain ⟨t, ht, hnext⟩ := onTick_eq hnext
    split_ifs at hnext with hphase
    cases hnext
    have hgood := h.ticks i t ht
    obtain ⟨hnodup, hknown⟩ := WebhookTables.claimDueDeliveries_spec h.rows now locked
      opts.batchSize opts.leaseMs
    have hdb : Good { s with
        db := (s.db.claimDueDeliveries now locked opts.batchSize opts.leaseMs).1 } :=
      h.setDb (h.rows.reschedule _ _) fun _ _ hid => hid
    refine hdb.setTick ht (fun released hended => ?_) ?_
    · cases hphase.symm.trans hended
    · rw [hgood.fresh hphase]
      exact Tick.Good.serve s.stopping opts.concurrency hnodup hknown
  | claimFails i =>
    rw [WebhookWorker.next] at hnext
    obtain ⟨t, ht, hnext⟩ := onTick_eq hnext
    split_ifs at hnext with hphase
    cases hnext
    have hgood := h.ticks i t ht
    refine h.endTick ht (fun released hended => ?_) ?_
    · cases hphase.symm.trans hended
    · rw [hgood.fresh hphase]
      exact Tick.Good.new.setPhase ⟨rfl, fun _ hmem => by cases hmem⟩ (.inr rfl)
  | read i w =>
    obtain ⟨t, worker, ht, hworker, hstep⟩ := onWorker_eq hnext
    exact h.workerStep ht hworker (fun _ _ he => by cases he) hstep
  | respond i w res =>
    obtain ⟨t, worker, ht, hworker, hstep⟩ := onWorker_eq hnext
    exact h.workerStep ht hworker (fun _ _ he => by cases he) hstep
  | commit i w nowDate =>
    obtain ⟨t, worker, ht, hworker, hstep⟩ := onWorker_eq hnext
    exact h.workerStep ht hworker (fun _ _ he => by cases he) hstep
  | fail i w =>
    obtain ⟨t, worker, ht, hworker, hstep⟩ := onWorker_eq hnext
    exact h.fail horderly ht hworker hstep
  | settle i =>
    rw [WebhookWorker.next] at hnext
    obtain ⟨t, ht, hnext⟩ := onTick_eq hnext
    split_ifs at hnext with hsettled
    cases hnext
    rw [Bool.and_eq_true, decide_eq_true_eq] at hsettled
    have hgood := h.ticks i t ht
    refine h.setTick ht (fun released hended => ?_)
      (hgood.setPhase (hgood.settled hsettled.2) (.inl rfl))
    cases hsettled.1.symm.trans hended
  | release i now =>
    rw [WebhookWorker.next] at hnext
    obtain ⟨t, ht, hnext⟩ := onTick_eq hnext
    split at hnext
    · rename_i ids hphase
      cases hnext
      have hdb : Good { s with db := s.db.releaseClaims ids now } :=
        h.setDb (h.rows.reschedule _ _) fun _ _ hid => hid
      have hgood := hdb.ticks i t ht
      refine hdb.endTick ht (fun released hended => ?_) (hgood.setPhase (hgood.quiet (.inl ?_)) ?_)
      · cases hphase.symm.trans hended
      · rw [hphase]
        exact fun h => by cases h
      · rw [hgood.released ids (.inl hphase)]
        exact .inr rfl
    · cases hnext
  | releaseFails i => exact horderly.elim
  | stop =>
    cases hnext
    exact ⟨h.rows, h.ticks, h.one⟩
  | enqueue id endpointId now =>
    rw [WebhookWorker.next, Option.map_eq_some_iff] at hnext
    obtain ⟨db, henqueue, rfl⟩ := hnext
    obtain ⟨hrows, hcreated⟩ := h.rows.enqueue henqueue
    exact h.setDb hrows hcreated
  | setDisabled endpointId disabledAt =>
    cases hnext
    obtain ⟨hdeliveries, hcreated⟩ := WebhookTables.setDisabled_eq s.db endpointId disabledAt
    refine h.setDb (fun id row hrow => ?_) fun id _ hid => ?_
    · rw [hdeliveries] at hrow
      rw [hcreated]
      exact h.rows id row hrow
    · rw [hcreated]
      exact hid
  | deleteEndpoint endpointId =>
    cases hnext
    exact h.setDb (h.rows.deleteEndpoint endpointId) fun _ _ hid => hid

/-! ### Runs -/

lemma Good.start (deliveries : Dict ℕ WebhookDelivery) (endpoints : Dict ℕ WebhookEndpoint) :
    Good { db := .ofRows deliveries endpoints } where
  rows := WebhookTables.known_ofRows deliveries endpoints
  ticks _ _ h := by cases h
  one _ _ h := by cases h

/-- Two requests to one endpoint are the same. -/
lemma Good.one_request (h : s.Good) {i j v w : ℕ} {t t' : Tick} {a a' : DeliveryAttempt}
    {rest rest' : List ℕ} (ht : s.ticks[i]? = some t) (ht' : s.ticks[j]? = some t')
    (hv : t.workers[v]? = some (.sending a rest)) (hw : t'.workers[w]? = some (.sending a' rest'))
    (hsame : a.delivery.endpointId = a'.delivery.endpointId) : i = j ∧ v = w := by
  have hgood := h.ticks i t ht
  have hgood' := h.ticks j t' ht'
  have hopen : ∀ {k : ℕ} {u : Tick} {x : ℕ} {b : DeliveryAttempt} {more : List ℕ},
      s.ticks[k]? = some u → u.workers[x]? = some (.sending b more) → s.running = some k := by
    intro k u x b more hu hx
    refine h.one k u hu fun released hended => ?_
    cases ((h.ticks k u hu).active hx (List.cons_ne_nil _ _)).1.symm.trans hended
  obtain rfl : i = j := Option.some.inj ((hopen ht hv).symm.trans (hopen ht' hw))
  obtain rfl : t = t' := Option.some.inj (ht.symm.trans ht')
  refine ⟨rfl, ?_⟩
  by_contra hne
  have hapart := (List.pairwise_append.mp hgood.tidy.apart).1
  rw [List.pairwise_map, List.pairwise_iff_getElem] at hapart
  obtain ⟨hvlt, hvget⟩ := List.getElem?_eq_some_iff.mp hv
  obtain ⟨hwlt, hwget⟩ := List.getElem?_eq_some_iff.mp hw
  have hids := hgood.tidy.sent a rest (List.mem_of_getElem? hv)
  have hids' := hgood.tidy.sent a' rest' (List.mem_of_getElem? hw)
  rw [hsame, ← hids'] at hids
  rcases Nat.lt_or_gt_of_ne hne with hlt | hlt
  · have h := hapart v w hvlt hwlt hlt
    rw [hvget, hwget] at h
    exact h a.deliveryId List.mem_cons_self a'.deliveryId List.mem_cons_self hids
  · have h := hapart w v hwlt hvlt hlt
    rw [hvget, hwget] at h
    exact h a'.deliveryId List.mem_cons_self a.deliveryId List.mem_cons_self hids.symm

/-- In a run of a process in which a call of `deliverOne` throws only as the last thing of its tick
and releases succeed: an endpoint has one request under way at most; a tick that is over has
attempted every delivery that it claimed once or released it; no delivery is attempted while claims
are released, and a release makes its pending deliveries due. -/
theorem oneRequest_anEndpoint {opts : WorkerOptions} {deliveries : Dict ℕ WebhookDelivery}
    {endpoints : Dict ℕ WebhookEndpoint} {events : List WorkerEvent} {s : WebhookWorker}
    (hrun : run opts { db := .ofRows deliveries endpoints } events = some s)
    (horderly : ∀ before e after s₁, events = before ++ e :: after →
      run opts { db := .ofRows deliveries endpoints } before = some s₁ → s₁.Orderly e) :
    (∀ (i j v w : ℕ) (t t' : Tick) (a a' : DeliveryAttempt) (rest rest' : List ℕ),
      s.ticks[i]? = some t → s.ticks[j]? = some t' → t.workers[v]? = some (.sending a rest) →
      t'.workers[w]? = some (.sending a' rest') →
      a.delivery.endpointId = a'.delivery.endpointId → i = j ∧ v = w) ∧
    (∀ (i : ℕ) (t : Tick) (released : List ℕ), s.ticks[i]? = some t → t.phase = .ended released →
      (t.claimed.map ClaimedDelivery.id).Nodup ∧
        (t.claimed.map ClaimedDelivery.id).Perm (t.attempted ++ released)) ∧
    ∀ (i : ℕ) (t : Tick) (ids : List ℕ), s.ticks[i]? = some t → t.phase = .releasing ids →
      (∀ (j : ℕ) (t' : Tick) (worker : LaneWorker), s.ticks[j]? = some t' → worker ∈ t'.workers →
        ∀ id ∈ ids, id ∉ worker.attempting) ∧
      ∀ now s', s.next opts (.release i now) = some s' → ∀ id ∈ ids, ∀ row,
        s.db.deliveries.get? id = some row → row.status = .pending →
        s'.db.deliveries.get? id = some { row with nextAttemptAt := some now } := by
  have hgood : s.Good := runSteps_invariant_of (fun s₁ e s₂ hs horderly hnext =>
    hs.next horderly hnext) (Good.start deliveries endpoints) hrun horderly
  refine ⟨fun i j v w t t' a a' rest rest' => hgood.one_request, fun i t released ht hended => ?_,
    fun i t ids ht hphase => ⟨fun j t' worker ht' hworker id _ hattempting => ?_, ?_⟩⟩
  · exact ⟨(hgood.ticks i t ht).tidy.nodup, (hgood.ticks i t ht).attempted_or_released hended⟩
  · have hlane : worker.lane ≠ [] := List.ne_nil_of_mem (List.mem_append_left _ hattempting)
    obtain ⟨v, hv⟩ := List.mem_iff_getElem?.mp hworker
    have hserving := (hgood.ticks j t' ht').active hv hlane
    have hopen : ∀ released, t'.phase ≠ .ended released :=
      fun released hended => by cases hserving.1.symm.trans hended
    have hopen' : ∀ released, t.phase ≠ .ended released :=
      fun released hended => by cases hphase.symm.trans hended
    obtain rfl : i = j :=
      Option.some.inj ((hgood.one i t ht hopen').symm.trans (hgood.one j t' ht' hopen))
    obtain rfl : t = t' := Option.some.inj (ht.symm.trans ht')
    cases hserving.1.symm.trans hphase
  · intro now s' hnext id hid row hrow hpending
    rw [WebhookWorker.next] at hnext
    obtain ⟨t', ht', hnext⟩ := onTick_eq hnext
    obtain rfl : t = t' := Option.some.inj (ht.symm.trans ht')
    rw [hphase] at hnext
    cases hnext
    change (s.db.releaseClaims ids now).deliveries.get? id = _
    rw [WebhookTables.releaseClaims, WebhookTables.reschedule, Dict.get?_mapEntries, hrow,
      Option.map_some, if_pos ⟨hid, hpending⟩]

/-! ### A throw while another lane is served -/

/-- Due deliveries of two endpoints. -/
def twoEndpoints : WebhookTables :=
  .ofRows
    (Dict.ofList [(0, { endpointId := 1, nextAttemptAt := some 0 }),
      (1, { endpointId := 2, nextAttemptAt := some 0 }),
      (2, { endpointId := 2, nextAttemptAt := some 0 })])
    (Dict.ofList [(1, {}), (2, {})])

/-- The call for the first delivery of an endpoint throws during a request to the other endpoint, for
which there is a new delivery in the next tick. -/
def throwDuringRequest : List WorkerEvent :=
  [.timer, .claim 0 0 [], .read 0 0, .fail 0 1, .settle 0, .release 0 1, .enqueue 3 1 2, .timer,
    .claim 1 5000 [], .read 1 0]

/-- The next tick sends a second request to the endpoint, and the claim after the one that threw is
neither attempted nor released. -/
theorem throw_overlaps : ∃ (s : WebhookWorker) (t t' : Tick) (a a' : DeliveryAttempt),
    run {} { db := twoEndpoints } throwDuringRequest = some s ∧
    s.ticks[0]? = some t ∧ s.ticks[1]? = some t' ∧ t.workers[0]? = some (.sending a []) ∧
    t'.workers[0]? = some (.sending a' []) ∧ a.delivery.endpointId = a'.delivery.endpointId ∧
    t.phase = .ended [] ∧ ¬ (t.claimed.map ClaimedDelivery.id).Perm (t.attempted ++ []) := by
  have hrun : (run {} { db := twoEndpoints } throwDuringRequest).map WebhookWorker.ticks = some
      [{ phase := .ended [], claimed := [⟨0, 1⟩, ⟨1, 2⟩, ⟨2, 2⟩],
          workers := [.sending ⟨0, { endpointId := 1, nextAttemptAt := some 900000 }, {}⟩ [], .threw],
          attempted := [0, 1] },
        { phase := .serving, claimed := [⟨3, 1⟩],
          workers := [.sending ⟨3, { endpointId := 1, nextAttemptAt := some 905000 }, {}⟩ []],
          attempted := [3] }] := by
    decide
  obtain ⟨s, hs, hticks⟩ := Option.map_eq_some_iff.mp hrun
  refine ⟨s, _, _, ⟨0, { endpointId := 1, nextAttemptAt := some 900000 }, {}⟩,
    ⟨3, { endpointId := 1, nextAttemptAt := some 905000 }, {}⟩, hs, by rw [hticks]; rfl,
    by rw [hticks]; rfl, rfl, rfl, rfl, rfl, ?_⟩
  decide

/-- A process whose second endpoint fails. -/
def quietTick : List WorkerEvent :=
  [.timer, .claim 0 0 [], .read 0 0, .respond 0 0 (some ⟨true, 200⟩), .read 0 1, .commit 0 0 20,
    .respond 0 1 none, .commit 0 1 30, .settle 0, .release 0 40]

lemma orderly_quietTick {before after : List WorkerEvent} {e : WorkerEvent} (s : WebhookWorker)
    (h : quietTick = before ++ e :: after) : s.Orderly e := by
  have hmem : e ∈ quietTick := h ▸ List.mem_append_right _ List.mem_cons_self
  simp only [quietTick, List.mem_cons, List.not_mem_nil, or_false] at hmem
  rcases hmem with rfl | rfl | rfl | rfl | rfl | rfl | rfl | rfl | rfl | rfl <;> trivial

/-- The tick of such a process attempts two of its claims and releases the third. -/
theorem oneRequest_quietTick : ∃ (s : WebhookWorker) (t : Tick),
    run {} { db := twoEndpoints } quietTick = some s ∧ s.ticks[0]? = some t ∧
      (t.claimed.map ClaimedDelivery.id).Perm (t.attempted ++ [2]) := by
  have hrun : (run {} { db := twoEndpoints } quietTick).map
      (fun s => s.ticks.map fun t => t.phase) = some [.ended [2]] := by
    decide
  obtain ⟨s, hs, hticks⟩ := Option.map_eq_some_iff.mp hrun
  obtain ⟨t, ht, hphase⟩ := List.map_eq_singleton_iff.mp hticks
  refine ⟨s, t, hs, by rw [ht]; rfl, ?_⟩
  exact ((oneRequest_anEndpoint hs fun before e after s₁ hsplit _ => orderly_quietTick s₁ hsplit).2.1
    0 t [2] (by rw [ht]; rfl) hphase).2

end WebhookWorker

end Junjo.Webhooks

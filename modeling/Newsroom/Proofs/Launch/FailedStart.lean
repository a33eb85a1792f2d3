import Newsroom.Proofs.Launch.StandIns

/-!
# The moment at which a start fails

Stages are started downstream first.  Until one of them fails to start, the stages that
are still to be started have left no trace on the floor, so that stand-ins can take their
places.

## Main Definitions

* `Untouched` — the stages from some rank on have done nothing
* `deskStandIns`, `standIns` — stand-ins for a dispatcher with some co-editors, and for
  some producers

## Main Statements

* `Untouched.step` — a stage that was started leaves the others untouched
* `exists_covers` — when a start fails there is a floor with stand-ins that is in order
-/

namespace Newsroom.Launch

variable {ρ α : Type} {sink : Sink} {k : Nat} {f f' : Floor ρ α}

/-- The stages from some rank on have done nothing.  While the dispatcher is among them
there is nothing to do for the others either. -/
structure Untouched (k : Nat) (f : Floor ρ α) : Prop where
  fresh : k ≤ rank .dispatcher → f.Fresh
  producer : ∀ (i : Nat) (p : Producer ρ), k ≤ rank (.producer i) → f.producers[i]? = some p →
    p.phase = .writing
  source : ∀ (i : Nat) (q : Queue (Message α)), k ≤ rank (.producer i) →
    f.sources[i]? = some q → q.items = []

theorem untouched_of_fresh (h : f.Fresh) (k : Nat) : Untouched k f where
  fresh := fun _ => h
  producer := fun i p _ hp => (h.producers i p hp).2.1
  source := fun _ q _ hq => (h.sources q (List.mem_of_getElem? hq)).1

/-- One stage fewer is to be started. -/
theorem Untouched.succ (h : Untouched k f) : Untouched (k + 1) f where
  fresh := fun hk => h.fresh (Nat.le_of_succ_le hk)
  producer := fun i p hi => h.producer i p (Nat.le_of_succ_le hi)
  source := fun i q hi => h.source i q (Nat.le_of_succ_le hi)

section

variable [CategorySource ρ] [Payload α]

/-- Where nothing has happened, neither the screen manager nor a co-editor has anything
to do. -/
theorem dispatcher_le_rank {a : Actor} (h : f.Fresh) (hstep : Floor.Step sink f a f') :
    rank .dispatcher ≤ rank a := by
  have hphase : ∀ c, (f.coEditors.get c).phase = .waiting := by simp [h.coEditors]
  cases hstep with
  | @take c m r hwaiting hm =>
      have hitems := (Queue.items_remove? hm).1
      rw [(h.categories c).1] at hitems
      cases hitems
  | @forward c m r hholding hroom => cases (hphase c).symm.trans hholding
  | display hwaiting hm =>
      have hitems := (Queue.items_remove? hm).1
      rw [h.screenQueue.1] at hitems
      cases hitems
  | finish hclosing =>
      rw [h.screen] at hclosing
      cases hclosing
  | write hp hphase =>
      simp only [rank]
      omega
  | handOver hp hheld hq hroom =>
      simp only [rank]
      omega
  | _ => exact Nat.le_refl _

/-- A stage that was started leaves the others untouched. -/
theorem Untouched.step {a : Actor} (h : Untouched k f) (ha : rank a < k)
    (hstep : Floor.Step sink f a f') : Untouched k f' := by
  have hne : ∀ i, k ≤ rank (.producer i) → a ≠ .producer i := by
    rintro i hi rfl
    exact absurd ha (Nat.not_lt.2 hi)
  refine
    { fresh := fun hk => ?_
      producer := fun i p hi hp => ?_
      source := fun i q hi hq => ?_ }
  · have hle := dispatcher_le_rank (h.fresh hk) hstep
    omega
  · rw [hstep.producer_of_ne (hne i hi)] at hp
    exact h.producer i p hi hp
  · obtain ⟨hlt, -⟩ := List.getElem?_eq_some_iff.1 hq
    rw [hstep.lengths.2] at hlt
    have hbefore := List.getElem?_eq_getElem hlt
    have hempty := h.source i _ hi hbefore
    rw [hstep.source_of_ne (hne i hi) hbefore hempty, Option.some.injEq] at hq
    rw [← hq, hempty]

end

/-! ### A dispatcher that is missing -/

/-- Stand-ins for the dispatcher and for the co-editors from some rank on.  The dispatcher
has sent its end marks, and each missing co-editor holds its own. -/
def deskStandIns (k : Nat) (f : Floor ρ α) : Floor ρ α where
  producers := []
  sources := []
  dispatcher := { sources := [], phase := .finished }
  categories := ByCategory.ofFn fun c =>
    { f.categories.get c with items := if rank (.coEditor c) < k then [.done] else [] }
  coEditors := ByCategory.ofFn fun c =>
    if rank (.coEditor c) < k then {} else { phase := .holding .done }
  screenQueue := f.screenQueue
  screen := f.screen
  events := f.events

/-- The stand-ins are in order: each of them has one end mark on its way. -/
theorem orderly_deskStandIns (h : f.Fresh) (k : Nat) : (deskStandIns k f).Orderly := by
  have hone : Link 1 1 0 [(.done : Message α)] := (Link.empty 1).insert_done (by decide)
  have hnone : Floor.closedCoEditors (deskStandIns k f).coEditors = 0 := by
    have hsent : ∀ c, ((deskStandIns k f).coEditors.get c).sent = 0 := by
      intro c
      rw [deskStandIns, ByCategory.get_ofFn]
      split <;> rfl
    simp [Floor.closedCoEditors, exactSum_toList, hsent]
  refine
    { sources_length := rfl
      statuses_length := rfl
      sourceRoom := fun q hq => by cases hq
      categoryRoom := fun c => ?_
      screenRoom := h.screenQueue.2
      steady := fun s hs => by cases hs
      prompt := fun i hi => by cases hi
      sources := fun i p q s hp => by cases hp
      categories := fun c => ?_
      screenQueue := ?_
      counting := ?_ }
  · rw [deskStandIns, ByCategory.get_ofFn]
    exact (h.categories c).2
  · simp only [deskStandIns, ByCategory.get_ofFn]
    split
    · exact hone
    · exact hone.remove_done
  · rw [hnone]
    show Link 3 0 f.screen.report.sentinelsReceived f.screenQueue.items
    rw [h.screen, h.screenQueue.1]
    exact Link.empty 3
  · show f.screen.Counting
    rw [h.screen]
    show 0 < Screen.sentinelsExpected
    decide

theorem covers_deskStandIns (h : f.Fresh) (hpos : 0 < k) (hk : k ≤ rank .dispatcher) (n : Nat) :
    Covers k (marksFor k n) f (deskStandIns k f) := by
  have hmarks : marksFor k n =
      Category.all.map .category ++ List.replicate (rank .dispatcher - k) .screen := by
    rw [marksFor, if_neg (Nat.ne_of_gt hpos), if_pos hk]
  have hall : ∀ c, .category c ∈ marksFor k n := by simp [hmarks, Category.mem_all]
  have hcount : (marksFor k n).count .screen = rank .dispatcher - k := by
    rw [hmarks, List.count_append, List.count_replicate_self, List.count_eq_zero.2 (by simp),
      Nat.zero_add]
  refine .withoutDispatcher hpos hk ?_
  refine
    { producers := rfl
      dispatcher := rfl
      screenQueue := rfl
      screen := rfl
      coEditor := fun c hc => ?_
      category := fun c hc => ?_
      missing := fun c hc => ?_
      pending := fun c _ => h.categories c
      marks := ⟨Category.all, rank .dispatcher - k, by decide, by omega, hmarks⟩ }
  · rw [deskStandIns, ByCategory.get_ofFn, if_pos hc, h.coEditors, ByCategory.get_const]
  · rw [deskStandIns, ByCategory.get_ofFn, if_pos hc, if_pos (hall c)]
  · rw [deskStandIns, ByCategory.get_ofFn, if_neg (Nat.not_lt.2 hc), hcount, if_pos (by omega)]

/-- The stand-ins have no more to do than the dispatcher and the co-editors would have. -/
theorem work_deskStandIns_le (h : f.Fresh) (k : Nat) : (deskStandIns k f).work ≤ f.work := by
  have hshare : ∀ c, Floor.queueWork 4 4 ((deskStandIns k f).categories.get c) +
      Floor.coEditorWork ((deskStandIns k f).coEditors.get c) ≤ 4 := by
    intro c
    simp only [deskStandIns, ByCategory.get_ofFn]
    split <;> simp [Floor.queueWork, Floor.coEditorWork, Floor.weight]
  have hscreen : Floor.screenWork f.screen = 1 := by
    rw [h.screen]
    rfl
  have hqueue : Floor.queueWork 2 2 f.screenQueue = 0 := by
    simp [Floor.queueWork, h.screenQueue.1]
  have hwork : (deskStandIns k f).work =
      exactSum ((deskStandIns k f).categories.map (Floor.queueWork 4 4)).toList +
        exactSum ((deskStandIns k f).coEditors.map Floor.coEditorWork).toList +
        Floor.queueWork 2 2 f.screenQueue + Floor.screenWork f.screen := by
    simp [Floor.work, deskStandIns, Floor.dispatcherWork]
  have hs := hshare .sports
  have hn := hshare .news
  have hw := hshare .weather
  have hfresh := h.work_eq
  simp only [exactSum_toList, ByCategory.get_map] at hwork
  omega

/-! ### Producers that are missing -/

/-- Stand-ins for the producers from some rank on, which have only their end mark to
send. -/
def standIns (k : Nat) (ps : List (Producer ρ)) : List (Producer ρ) :=
  ps.mapIdx fun i p => if rank (.producer i) < k then p else { p with phase := .closing }

theorem getElem?_standIns (k : Nat) (ps : List (Producer ρ)) (i : Nat) :
    (standIns k ps)[i]? =
      ps[i]?.map fun p => if rank (.producer i) < k then p else { p with phase := .closing } := by
  rw [standIns, List.getElem?_mapIdx]

theorem length_standIns (k : Nat) (ps : List (Producer ρ)) : (standIns k ps).length = ps.length :=
  List.length_mapIdx

/-- The entries of a list of producers with stand-ins. -/
theorem standIns_cases {ps : List (Producer ρ)} {i : Nat} {p' : Producer ρ}
    (h : (standIns k ps)[i]? = some p') :
    ∃ p, ps[i]? = some p ∧ ((rank (.producer i) < k ∧ p' = p) ∨
      (k ≤ rank (.producer i) ∧ p' = { p with phase := .closing })) := by
  rw [getElem?_standIns, Option.map_eq_some_iff] at h
  obtain ⟨p, hp, rfl⟩ := h
  refine ⟨p, hp, ?_⟩
  by_cases hi : rank (.producer i) < k
  · exact .inl ⟨hi, if_pos hi⟩
  · exact .inr ⟨Nat.le_of_not_lt hi, if_neg hi⟩

/-- A producer that has not been started and one that holds its end mark have both sent
none, so that the stand-ins do not disturb the order. -/
theorem orderly_standIns (h : f.Orderly) (hu : Untouched k f) :
    Floor.Orderly { f with producers := standIns k f.producers } := by
  refine { h with
    sources_length := by rw [h.sources_length, length_standIns]
    statuses_length := by rw [h.statuses_length, length_standIns]
    sources := fun i p' q s hp' hq hs => ?_ }
  obtain ⟨p, hp, ⟨-, rfl⟩ | ⟨hi, rfl⟩⟩ := standIns_cases hp'
  · exact h.sources i p' q s hp hq hs
  · have hlink := h.sources i p q s hp hq hs
    have hsent : p.sent = 0 := by simp [Producer.sent, hu.producer i p hi hp]
    rwa [hsent] at hlink

theorem marksFor_of_dispatcher (hk : rank .dispatcher < k) (n : Nat) :
    marksFor k n = ((List.range n).drop (k - rank (.producer 0))).map .source := by
  rw [marksFor, if_neg (Nat.ne_of_gt (Nat.zero_lt_of_lt hk)), if_neg (Nat.not_le.2 hk)]

theorem mem_marksFor_source {n i : Nat} (hk : rank .dispatcher < k) :
    .source i ∈ marksFor k n ↔ i < n ∧ k ≤ rank (.producer i) := by
  rw [marksFor_of_dispatcher hk, List.range_eq_range', List.drop_range']
  simp only [List.mem_map, Place.source.injEq, exists_eq_right, List.mem_range'_1, rank] at hk ⊢
  omega

theorem covers_standIns (h : f.Orderly) (hu : Untouched k f) (hk : rank .dispatcher < k) :
    Covers k (marksFor k f.producers.length) f
      { f with producers := standIns k f.producers } := by
  refine .withoutProducers hk ?_
  refine
    { producer := fun i hi => ?_
      missing := fun i p' hi hp' => ?_
      pending := fun p hp => ?_
      nodup := ?_ }
  · rw [getElem?_standIns]
    simp [hi]
  · obtain ⟨p, hp, ⟨hlt, -⟩ | ⟨-, rfl⟩⟩ := standIns_cases hp'
    · exact absurd hlt (Nat.not_lt.2 hi)
    · obtain ⟨hlt, -⟩ := List.getElem?_eq_some_iff.1 hp
      rw [if_pos ((mem_marksFor_source hk).2 ⟨hlt, hi⟩)]
  · have hsource : ∃ i, p = .source i := by
      rw [marksFor_of_dispatcher hk] at hp
      obtain ⟨i, -, rfl⟩ := List.mem_map.1 hp
      exact ⟨i, rfl⟩
    obtain ⟨i, rfl⟩ := hsource
    obtain ⟨hlt, hi⟩ := (mem_marksFor_source hk).1 hp
    have hq := List.getElem?_eq_getElem (h.sources_length ▸ hlt)
    exact ⟨i, _, rfl, hi, hq, hu.source i _ hi hq⟩
  · rw [marksFor_of_dispatcher hk]
    refine List.pairwise_map.2 ((List.nodup_range.sublist (List.drop_sublist _ _)).imp ?_)
    intro i j hij heq
    exact hij (Place.source.inj heq)

theorem work_standIns_le (hu : Untouched k f) :
    Floor.work { f with producers := standIns k f.producers } ≤ f.work := by
  have hproducers : exactSum ((standIns k f.producers).map Floor.producerWork) ≤
      exactSum (f.producers.map Floor.producerWork) := by
    apply exactSum_map_le (length_standIns _ _)
    intro i p p' hp hp'
    obtain ⟨p₀, hp₀, ⟨-, rfl⟩ | ⟨hi, rfl⟩⟩ := standIns_cases hp'
    · cases hp.symm.trans hp₀
      exact Nat.le_refl _
    · cases hp.symm.trans hp₀
      simp [Floor.producerWork, hu.producer i p hi hp]
  simp only [Floor.work]
  omega

/-! ### All cases -/

/-- When a start fails there are stand-ins for the missing stages.  With them the floor is
in order, and there is no more work than before. -/
theorem exists_covers (h : f.Orderly) (hu : Untouched k f) :
    ∃ v : Floor ρ α, v.Orderly ∧ Covers k (marksFor k f.producers.length) f v ∧
      v.work ≤ f.work := by
  rcases Nat.eq_zero_or_pos k with rfl | hpos
  · exact ⟨f, h, .nobody rfl rfl, Nat.le_refl _⟩
  rcases Nat.lt_or_ge (rank .dispatcher) k with hk | hk
  · exact ⟨_, orderly_standIns h hu, covers_standIns h hu hk, work_standIns_le hu⟩
  · have hfresh := hu.fresh hk
    exact ⟨_, orderly_deskStandIns hfresh k, covers_deskStandIns hfresh hpos hk _,
      work_deskStandIns_le hfresh k⟩

/-- The end marks of the missing stages are not many. -/
theorem length_marksFor_le (k n : Nat) : (marksFor k n).length ≤ n + 7 := by
  unfold marksFor
  split
  · exact Nat.zero_le _
  · split
    · simp [Category.all, rank]
      omega
    · simp
      omega

end Newsroom.Launch

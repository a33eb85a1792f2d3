import Newsroom.Proofs.Floor.Progress
import Newsroom.Proofs.Launch.Step

/-!
# Stand-ins for missing stages

When a stage cannot be started, the launcher sends the end marks of the stages that are
missing.  To the stages that were started this looks as if the missing ones were there,
each about to send its end mark.

## Main Definitions

* `DeskMarks` — the end marks that are sent when the dispatcher is missing
* `WithoutDispatcher` — a floor on which the dispatcher and some co-editors are missing,
  next to one where they have all but ended
* `WithoutProducers` — a floor on which some producers are missing, next to one where
  these only have their end marks to send
* `Covers` — one of the two, or nothing was started

## Main Statements

* `Covers.step` — what a started stage does it can also do beside stand-ins
* `Covers.mark` — an end mark from the launcher is that of a stand-in
* `Covers.mark_or_step` — an end mark can be sent, or a started stage can make room for it
* `Covers.ended_or_step` — once all end marks are sent the started stages come to their
  end

## Design Notes

The floor with the stand-ins is in order (`Floor.Orderly`), which the other is not.
Whatever follows from the order about a started stage or one of its queues therefore
holds on both.
-/

namespace Newsroom.Launch

variable {ρ α : Type}

/-- End marks for the sake of a missing dispatcher: some for categories, each at most once,
and then no more for the screen manager than there are missing co-editors. -/
def DeskMarks (k : Nat) (marks : List Place) : Prop :=
  ∃ (cs : List Category) (m : Nat), cs.Nodup ∧ m + k ≤ rank .dispatcher ∧
    marks = cs.map .category ++ List.replicate m .screen

/-- The dispatcher is missing, and the co-editors from some rank on.  The stand-in of the
dispatcher has sent its end marks, although the launcher still has some of them to send;
that of a co-editor holds its end mark until the launcher sends it. -/
structure WithoutDispatcher (k : Nat) (marks : List Place) (f v : Floor ρ α) : Prop where
  producers : v.producers = []
  dispatcher : v.dispatcher.phase = .finished
  screenQueue : v.screenQueue = f.screenQueue
  screen : v.screen = f.screen
  coEditor : ∀ c, rank (.coEditor c) < k → v.coEditors.get c = f.coEditors.get c
  category : ∀ c, rank (.coEditor c) < k → v.categories.get c =
    if .category c ∈ marks then { f.categories.get c with items := [.done] }
    else f.categories.get c
  missing : ∀ c, k ≤ rank (.coEditor c) → (v.coEditors.get c).phase =
    if rank .dispatcher ≤ rank (.coEditor c) + marks.count .screen then .holding .done
    else .finished
  pending : ∀ c, .category c ∈ marks →
    (f.categories.get c).items = [] ∧ 0 < (f.categories.get c).capacity
  marks : DeskMarks k marks

/-- The producers from some rank on are missing, and there is a list of producers with
stand-ins for them.  Each of these has its end mark to send until the launcher sends it. -/
structure WithoutProducers (k : Nat) (marks : List Place) (f : Floor ρ α)
    (ps : List (Producer ρ)) : Prop where
  producer : ∀ i, rank (.producer i) < k → ps[i]? = f.producers[i]?
  missing : ∀ (i : Nat) (p : Producer ρ), k ≤ rank (.producer i) → ps[i]? = some p →
    p.phase = if .source i ∈ marks then .closing else .finished
  pending : ∀ p ∈ marks, ∃ i q, p = .source i ∧ k ≤ rank (.producer i) ∧
    f.sources[i]? = some q ∧ q.items = []
  nodup : marks.Nodup

/-- A floor on which some stages are missing, while the launcher has some end marks to
send, next to one with stand-ins. -/
inductive Covers (k : Nat) (marks : List Place) (f : Floor ρ α) : Floor ρ α → Prop
  | nobody {v : Floor ρ α} (hk : k = 0) (hmarks : marks = []) : Covers k marks f v
  | withoutDispatcher {v : Floor ρ α} (hpos : 0 < k) (hk : k ≤ rank .dispatcher)
      (h : WithoutDispatcher k marks f v) : Covers k marks f v
  | withoutProducers {ps : List (Producer ρ)} (hk : rank .dispatcher < k)
      (h : WithoutProducers k marks f ps) : Covers k marks f { f with producers := ps }

variable [CategorySource ρ] [Payload α] {sink : Sink} {k : Nat} {p : Place} {marks : List Place}
  {f f' v v' : Floor ρ α} {ps : List (Producer ρ)}

/-! ### Without a dispatcher -/

omit [CategorySource ρ] [Payload α] in
/-- The queue of a category that gives a message is not one that waits for its mark. -/
theorem WithoutDispatcher.not_pending (h : WithoutDispatcher k marks f v) {c : Category}
    {m : Message α} {r : Queue (Message α)} (hm : (f.categories.get c).remove? = some (m, r)) :
    .category c ∉ marks := by
  intro hmem
  have hempty := (h.pending c hmem).1
  rw [(Queue.items_remove? hm).1] at hempty
  cases hempty

omit [CategorySource ρ] [Payload α] in
/-- Before the dispatcher only the screen manager and co-editors are started. -/
theorem eq_screen_or_coEditor {a : Actor} (h : rank a < rank .dispatcher) :
    a = .screen ∨ ∃ c, a = .coEditor c := by
  cases a with
  | screen => exact .inl rfl
  | coEditor c => exact .inr ⟨c, rfl⟩
  | dispatcher => exact absurd h (Nat.lt_irrefl _)
  | producer i =>
      simp only [rank] at h
      omega

private theorem WithoutDispatcher.step_coEditor {c : Category} (h : WithoutDispatcher k marks f v)
    (hc : rank (.coEditor c) < k) (hstep : Floor.Step sink f (.coEditor c) f') :
    ∃ v', Floor.Step sink v (.coEditor c) v' ∧ WithoutDispatcher k marks f' v' := by
  have hsame := h.coEditor c hc
  have hother : ∀ e : CoEditor α, ∀ d, k ≤ rank (.coEditor d) →
      (v.coEditors.set c e).get d = v.coEditors.get d := by
    intro e d hd
    have hdc : d ≠ c := by
      rintro rfl
      exact absurd hc (Nat.not_lt.2 hd)
    exact ByCategory.get_set_of_ne _ hdc _
  cases hstep with
  | @take _ m r hphase hm =>
      have hnot := h.not_pending hm
      have hqueue : v.categories.get c = f.categories.get c := by rw [h.category c hc, if_neg hnot]
      refine ⟨_, .take (c := c) (m := m) (r := r) (hsame ▸ hphase) (hqueue ▸ hm), ?_⟩
      refine { h with
        coEditor := fun d hd => ?_
        category := fun d hd => ?_
        missing := fun d hd => ?_
        pending := fun d hd => ?_ }
      · simp only [ByCategory.get_set, hsame, h.coEditor d hd]
      · by_cases hdc : d = c
        · simp [hdc, hnot]
        · simp only [ByCategory.get_set_of_ne _ hdc, h.category d hd]
      · simp only [hother _ d hd, h.missing d hd]
      · have hdc : d ≠ c := by
          rintro rfl
          exact hnot hd
        simpa only [ByCategory.get_set_of_ne _ hdc] using h.pending d hd
  | @forward _ m r hphase hroom =>
      refine ⟨_, .forward (c := c) (m := m) (r := r) (hsame ▸ hphase) (h.screenQueue ▸ hroom), ?_⟩
      refine { h with
        screenQueue := rfl
        coEditor := fun d hd => ?_
        missing := fun d hd => ?_ }
      · simp only [ByCategory.get_set, hsame, h.coEditor d hd]
      · simp only [hother _ d hd, h.missing d hd]

private theorem WithoutDispatcher.step_screen (h : WithoutDispatcher k marks f v)
    (hstep : Floor.Step sink f .screen f') :
    ∃ v', Floor.Step sink v .screen v' ∧ WithoutDispatcher k marks f' v' := by
  cases hstep with
  | @display m r hphase hm =>
      refine ⟨_, .display (m := m) (r := r) (h.screen ▸ hphase) (h.screenQueue ▸ hm), ?_⟩
      exact { h with
        screenQueue := rfl
        screen := by rw [h.screen] }
  | finish hphase =>
      refine ⟨_, .finish (h.screen ▸ hphase), ?_⟩
      exact { h with screen := by rw [h.screen] }

theorem WithoutDispatcher.step {a : Actor} (h : WithoutDispatcher k marks f v)
    (hk : k ≤ rank .dispatcher) (ha : rank a < k) (hstep : Floor.Step sink f a f') :
    ∃ v', Floor.Step sink v a v' ∧ WithoutDispatcher k marks f' v' := by
  rcases eq_screen_or_coEditor (Nat.lt_of_lt_of_le ha hk) with rfl | ⟨c, rfl⟩
  · exact h.step_screen hstep
  · exact h.step_coEditor ha hstep

omit [CategorySource ρ] [Payload α] in
theorem rank_coEditor_inj {c d : Category} (h : rank (.coEditor c) = rank (.coEditor d)) :
    c = d := by
  cases c <;> cases d <;> first | rfl | cases h

omit [CategorySource ρ] [Payload α] in
theorem exists_coEditor {n : Nat} (hpos : 0 < n) (hlt : n < rank .dispatcher) :
    ∃ c, rank (.coEditor c) = n := by
  rcases n with - | - | - | - | n
  · cases hpos
  · exact ⟨.sports, rfl⟩
  · exact ⟨.news, rfl⟩
  · exact ⟨.weather, rfl⟩
  · simp only [rank] at hlt
    omega

omit [CategorySource ρ] [Payload α] in
/-- An empty queue with a message put in. -/
theorem insert?_of_empty {q r : Queue (Message α)} {m : Message α} (hempty : q.items = [])
    (h : q.insert? m = some r) : r = { q with items := [m] } := by
  unfold Queue.insert? at h
  split at h
  · rw [hempty] at h
    exact (Option.some.inj h).symm
  · cases h

omit [CategorySource ρ] [Payload α] in
/-- What the next end mark can be: one of a category, or none of these are left and it is
that of the missing co-editor whose turn it is. -/
theorem WithoutDispatcher.mark_cases (h : WithoutDispatcher k (p :: marks) f v) (hpos : 0 < k) :
    (∃ c, p = .category c ∧ .category c ∉ marks ∧ DeskMarks k marks) ∨
      ∃ c m, p = .screen ∧ marks = List.replicate m .screen ∧ k ≤ rank (.coEditor c) ∧
        rank (.coEditor c) + m + 1 = rank .dispatcher := by
  obtain ⟨cs, m, hnodup, hle, hmarks⟩ := h.marks
  cases cs with
  | cons c cs =>
      rw [List.map_cons, List.cons_append, List.cons.injEq] at hmarks
      obtain ⟨hc, hnodup⟩ := List.nodup_cons.1 hnodup
      have hnot : .category c ∉ marks := by simp [hmarks.2, hc]
      exact .inl ⟨c, hmarks.1, hnot, cs, m, hnodup, hle, hmarks.2⟩
  | nil =>
      cases m with
      | zero => cases hmarks
      | succ m =>
          rw [List.map_nil, List.nil_append, List.replicate_succ, List.cons.injEq] at hmarks
          simp only [rank] at hle
          obtain ⟨c, hc⟩ := exists_coEditor (n := 3 - m) (by omega) (by simp only [rank]; omega)
          refine .inr ⟨c, m, hmarks.1, hmarks.2, by omega, ?_⟩
          rw [hc]
          simp only [rank]
          omega

omit [CategorySource ρ] [Payload α] in
/-- An end mark for a category changes nothing beside the stand-ins. -/
private theorem WithoutDispatcher.mark_category {c : Category}
    (h : WithoutDispatcher k (.category c :: marks) f v) (hnot : .category c ∉ marks)
    (hmarks : DeskMarks k marks)
    (hinsert : f.insert? (.category c) .done = some f') : WithoutDispatcher k marks f' v := by
  obtain ⟨q, r, hq, hr, rfl⟩ := Floor.insert?_eq_some_iff.1 hinsert
  cases hq
  have hr := insert?_of_empty (h.pending c List.mem_cons_self).1 hr
  have hiff : ∀ d, d ≠ c → (.category d ∈ Place.category c :: marks ↔ .category d ∈ marks) := by
    intro d hdc
    simp [hdc]
  refine { h with
    category := fun d hd => ?_
    missing := fun d hd => ?_
    pending := fun d hd => ?_
    marks := hmarks }
  · simp only [Floor.setQueue, ByCategory.get_set]
    by_cases hdc : d = c
    · rw [h.category d hd, if_pos (by simp [hdc]), if_pos hdc, hdc, if_neg hnot, hr]
    · simp only [h.category d hd, hiff d hdc, if_neg hdc]
  · rw [h.missing d hd, List.count_cons_of_ne (by simp)]
  · have hdc : d ≠ c := by
      rintro rfl
      exact hnot hd
    simp only [Floor.setQueue, ByCategory.get_set_of_ne _ hdc]
    exact h.pending d (List.mem_cons_of_mem _ hd)

/-- An end mark for the screen manager is that of the missing co-editor whose turn it is. -/
private theorem WithoutDispatcher.mark_screen {c : Category} {m : Nat}
    (h : WithoutDispatcher k (.screen :: marks) f v) (hmarks : marks = List.replicate m .screen)
    (hk : k ≤ rank (.coEditor c)) (hrank : rank (.coEditor c) + m + 1 = rank .dispatcher)
    (hinsert : f.insert? .screen .done = some f') :
    ∃ v', Floor.Step sink v (.coEditor c) v' ∧ WithoutDispatcher k marks f' v' := by
  obtain ⟨q, r, hq, hr, rfl⟩ := Floor.insert?_eq_some_iff.1 hinsert
  cases hq
  have hphase : (v.coEditors.get c).phase = .holding .done := by
    rw [h.missing c hk, hmarks, List.count_cons_self, List.count_replicate_self, if_pos (by omega)]
  have hroom : v.screenQueue.insert? .done = some r := by rw [h.screenQueue, hr]
  have hnone : ∀ d, .category d ∉ marks := by simp [hmarks]
  refine ⟨_, .forward hphase hroom, ?_⟩
  refine { h with
    screenQueue := rfl
    coEditor := fun d hd => ?_
    category := fun d hd => ?_
    missing := fun d hd => ?_
    pending := fun d hd => absurd hd (hnone d)
    marks := ⟨[], m, List.nodup_nil, by omega, hmarks⟩ }
  · have hdc : d ≠ c := by
      rintro rfl
      exact absurd hd (Nat.not_lt.2 hk)
    exact (ByCategory.get_set_of_ne _ hdc _).trans (h.coEditor d hd)
  · have hcategory := h.category d hd
    rw [if_neg (by simp [hnone d])] at hcategory
    rw [if_neg (hnone d)]
    exact hcategory
  · by_cases hdc : d = c
    · rw [hdc, ByCategory.get_set_self, hmarks, List.count_replicate_self, if_neg (by omega)]
      rfl
    · have hne : rank (.coEditor d) ≠ rank (.coEditor c) := fun h => hdc (rank_coEditor_inj h)
      have hmissing := h.missing d hd
      rw [hmarks, List.count_cons_self, List.count_replicate_self] at hmissing
      rw [ByCategory.get_set_of_ne _ hdc, hmissing, hmarks, List.count_replicate_self]
      refine if_congr ?_ rfl rfl
      omega

/-- An end mark for a category changes nothing beside the stand-ins, and one for the
screen manager is that of a missing co-editor. -/
theorem WithoutDispatcher.mark (h : WithoutDispatcher k (p :: marks) f v) (hpos : 0 < k)
    (hinsert : f.insert? p .done = some f') :
    ∃ v', (v' = v ∨ ∃ a, Floor.Step sink v a v') ∧ WithoutDispatcher k marks f' v' := by
  rcases h.mark_cases hpos with ⟨c, rfl, hnot, hmarks⟩ | ⟨c, m, rfl, hmarks, hk, hrank⟩
  · exact ⟨v, .inl rfl, h.mark_category hnot hmarks hinsert⟩
  · obtain ⟨v', hstep, h'⟩ := h.mark_screen hmarks hk hrank hinsert
    exact ⟨v', .inr ⟨_, hstep⟩, h'⟩

/-- The next end mark can be sent, unless the screen queue is full and the screen manager
can take a message from it. -/
theorem WithoutDispatcher.mark_or_step (h : WithoutDispatcher k (p :: marks) f v) (hpos : 0 < k)
    (hv : v.Orderly) (hcalm : f.screen.Calm) :
    (∃ f', f.insert? p .done = some f') ∨ ∃ f', Floor.Step sink f .screen f' := by
  rcases h.mark_cases hpos with ⟨c, rfl, -⟩ | ⟨c, m, rfl, hmarks, hk, hrank⟩
  · obtain ⟨hempty, hroom⟩ := h.pending c List.mem_cons_self
    obtain ⟨r, hr⟩ := Floor.exists_insert?_of_empty .done hempty hroom
    exact .inl ⟨_, Floor.insert?_eq_some_iff.2 ⟨_, r, rfl, hr, rfl⟩⟩
  · have hroom := hv.screenRoom
    rw [h.screenQueue] at hroom
    by_cases hfull : f.screenQueue.items.length < f.screenQueue.capacity
    · obtain ⟨r, hr⟩ := Floor.exists_insert? .done hfull
      exact .inl ⟨_, Floor.insert?_eq_some_iff.2 ⟨_, r, rfl, hr, rfl⟩⟩
    · have hnonempty : f.screenQueue.items ≠ [] := by
        intro hempty
        rw [hempty, List.length_nil] at hfull
        exact hfull hroom
      -- the end mark of the missing co-editor cannot have been taken yet
      have hmissing : f.screen.report.sentinelsReceived ≠ Screen.sentinelsExpected := by
        intro hall
        have hfinished := hv.coEditors_finished (h.screen ▸ hall) c
        rw [h.missing c hk, hmarks, List.count_cons_self, List.count_replicate_self,
          if_pos (by omega)] at hfinished
        cases hfinished
      cases hphase : f.screen.phase with
      | waiting =>
          obtain ⟨m, r, hm⟩ := Floor.exists_remove? hnonempty
          exact .inr ⟨_, .display hphase hm⟩
      | closing => exact .inr ⟨_, .finish hphase⟩
      | finished =>
          have hcounting := hv.counting
          simp only [Screen.Counting, h.screen, hphase] at hcounting
          exact absurd hcounting hmissing
      | panicked => exact absurd (hcalm hphase) hmissing

/-- Once all end marks are sent, only stages that were started go on. -/
theorem WithoutDispatcher.of_step {a : Actor} (h : WithoutDispatcher k [] f v)
    (hstep : Floor.Step sink v a v') (hpos : 0 < k) :
    rank a < k ∧ a ≠ .dispatcher ∧ ∃ f', Floor.Step sink f a f' := by
  have hstarted : ∀ c, (v.coEditors.get c).phase ≠ .finished → rank (.coEditor c) < k := by
    intro c hphase
    refine Nat.lt_of_not_le fun hk => hphase ?_
    have hlt := c.index_lt
    rw [h.missing c hk, if_neg]
    simp only [rank, Category.count, List.count_nil] at hlt ⊢
    omega
  cases hstep with
  | write hp hphase => simp [h.producers] at hp
  | handOver hp hheld hq hroom => simp [h.producers] at hp
  | miss hphase hq hempty => cases hphase.symm.trans h.dispatcher
  | takeDone hphase hq hm => cases hphase.symm.trans h.dispatcher
  | takeItem hphase hq hm hc => cases hphase.symm.trans h.dispatcher
  | drop hphase hq hm hc => cases hphase.symm.trans h.dispatcher
  | route hphase hroom => cases hphase.symm.trans h.dispatcher
  | check hphase hq => cases hphase.symm.trans h.dispatcher
  | close hphase hroom => cases hphase.symm.trans h.dispatcher
  | @take c m r hphase hm =>
      have hk := hstarted c (by simp [hphase])
      rw [h.category c hk, if_neg List.not_mem_nil] at hm
      exact ⟨hk, by simp, _, .take (h.coEditor c hk ▸ hphase) hm⟩
  | @forward c m r hphase hroom =>
      have hk := hstarted c (by simp [hphase])
      exact ⟨hk, by simp, _, .forward (h.coEditor c hk ▸ hphase) (h.screenQueue ▸ hroom)⟩
  | display hphase hm =>
      exact ⟨hpos, by simp, _, .display (h.screen ▸ hphase) (h.screenQueue ▸ hm)⟩
  | finish hphase => exact ⟨hpos, by simp, _, .finish (h.screen ▸ hphase)⟩

omit [CategorySource ρ] [Payload α] in
theorem WithoutDispatcher.standing_eq {a : Actor} (h : WithoutDispatcher k marks f v)
    (hk : k ≤ rank .dispatcher) (ha : rank a < k) : v.standing a = f.standing a := by
  cases a with
  | screen => simp only [Floor.standing, h.screen]
  | coEditor c => simp only [Floor.standing, h.coEditor c ha]
  | dispatcher => exact absurd ha (Nat.not_lt.2 hk)
  | producer i =>
      simp only [rank] at ha hk
      omega

/-! ### Without some producers -/

theorem WithoutProducers.step {a : Actor} (h : WithoutProducers k marks f ps) (ha : rank a < k)
    (hstep : Floor.Step sink f a f') :
    ∃ ps', Floor.Step sink { f with producers := ps } a { f' with producers := ps' } ∧
      WithoutProducers k marks f' ps' := by
  have hne : ∀ i, k ≤ rank (.producer i) → a ≠ .producer i := by
    rintro i hi rfl
    exact absurd ha (Nat.not_lt.2 hi)
  have hpending : ∀ p ∈ marks, ∃ i q, p = .source i ∧ k ≤ rank (.producer i) ∧
      f'.sources[i]? = some q ∧ q.items = [] := by
    intro p hp
    obtain ⟨i, q, hplace, hi, hq, hempty⟩ := h.pending p hp
    exact ⟨i, q, hplace, hi, hstep.source_of_ne (hne i hi) hq hempty, hempty⟩
  by_cases hproducer : ∃ i, a = .producer i
  · obtain ⟨i, rfl⟩ := hproducer
    have hset : ∀ p' : Producer ρ, ∀ j, k ≤ rank (.producer j) → (ps.set i p')[j]? = ps[j]? := by
      intro p' j hj
      exact List.getElem?_set_ne fun hij => hne j hj (congrArg _ hij)
    have hsame : ∀ p p' : Producer ρ, ps[i]? = some p → f.producers[i]? = some p →
        ∀ j, rank (.producer j) < k → (ps.set i p')[j]? = (f.producers.set i p')[j]? := by
      intro p p' hp hp' j hj
      rw [getElem?_set_of_some hp, getElem?_set_of_some hp', h.producer j hj]
    cases hstep with
    | @write _ p hp hphase =>
        have hp' := (h.producer i ha).trans hp
        refine ⟨_, .write hp' hphase, ?_⟩
        exact
          { producer := hsame p _ hp' hp
            missing := fun j p' hj hp' => h.missing j p' hj ((hset _ j hj).symm.trans hp')
            pending := hpending
            nodup := h.nodup }
    | @handOver _ p m q r hp hheld hq hroom =>
        have hp' := (h.producer i ha).trans hp
        refine ⟨_, .handOver hp' hheld hq hroom, ?_⟩
        exact
          { producer := hsame p _ hp' hp
            missing := fun j p' hj hp' => h.missing j p' hj ((hset _ j hj).symm.trans hp')
            pending := hpending
            nodup := h.nodup }
  · obtain ⟨hproducers, hstep'⟩ := hstep.with_producers (fun i hi => hproducer ⟨i, hi⟩) ps
    refine ⟨ps, hstep', ?_⟩
    exact
      { producer := fun i hi => by rw [hproducers, h.producer i hi]
        missing := h.missing
        pending := hpending
        nodup := h.nodup }

/-- An end mark for the dispatcher is that of a missing producer. -/
theorem WithoutProducers.mark (h : WithoutProducers k (p :: marks) f ps)
    (hv : Floor.Orderly { f with producers := ps }) (hinsert : f.insert? p .done = some f') :
    ∃ ps' a, Floor.Step sink { f with producers := ps } a { f' with producers := ps' } ∧
      WithoutProducers k marks f' ps' := by
  obtain ⟨i, q, rfl, hi, hq, hempty⟩ := h.pending p List.mem_cons_self
  obtain ⟨q', r, hq', hr, rfl⟩ := Floor.insert?_eq_some_iff.1 hinsert
  cases hq.symm.trans hq'
  obtain ⟨hnot, hnodup⟩ := List.nodup_cons.1 h.nodup
  have hlt : i < ps.length := by
    obtain ⟨hlt, -⟩ := List.getElem?_eq_some_iff.1 hq
    have hlength : f.sources.length = ps.length := hv.sources_length
    omega
  have hp := List.getElem?_eq_getElem hlt
  have hphase : ps[i].phase = .closing := by
    rw [h.missing i _ hi hp, if_pos List.mem_cons_self]
  have hheld : (ps[i].held? : Option (Message α)) = some .done := by
    simp [Producer.held?, hphase]
  refine ⟨_, _, .handOver hp hheld hq hr, ?_⟩
  refine
    { producer := fun j hj => ?_
      missing := fun j p' hj hp' => ?_
      pending := fun p hp => ?_
      nodup := hnodup }
  · have hij : i ≠ j := by
      rintro rfl
      exact absurd hj (Nat.not_lt.2 hi)
    exact (List.getElem?_set_ne hij).trans (h.producer j hj)
  · rw [getElem?_set_of_some hp] at hp'
    by_cases hji : j = i
    · rw [if_pos hji] at hp'
      cases hp'
      rw [hji, if_neg hnot, Producer.handedOver, hphase]
    · rw [if_neg hji] at hp'
      rw [h.missing j p' hj hp']
      simp [hji]
  · obtain ⟨j, q, rfl, hj, hq, hempty⟩ := h.pending p (List.mem_cons_of_mem _ hp)
    have hij : i ≠ j := by
      rintro rfl
      exact hnot hp
    exact ⟨j, q, rfl, hj, (List.getElem?_set_ne hij).trans hq, hempty⟩

omit [CategorySource ρ] [Payload α] in
/-- There is room for the end mark of a missing producer. -/
theorem WithoutProducers.exists_mark (h : WithoutProducers k (p :: marks) f ps)
    (hv : Floor.Orderly { f with producers := ps }) : ∃ f', f.insert? p .done = some f' := by
  obtain ⟨i, q, rfl, -, hq, hempty⟩ := h.pending p List.mem_cons_self
  have hroom := hv.sourceRoom q (List.mem_of_getElem? hq)
  obtain ⟨r, hr⟩ := Floor.exists_insert?_of_empty .done hempty hroom
  exact ⟨_, Floor.insert?_eq_some_iff.2 ⟨q, r, hq, hr, rfl⟩⟩

/-- Once all end marks are sent, only stages that were started go on. -/
theorem WithoutProducers.of_step {a : Actor} (h : WithoutProducers k [] f ps)
    (hk : rank .dispatcher < k) (hstep : Floor.Step sink { f with producers := ps } a v') :
    rank a < k ∧ ∃ f', Floor.Step sink f a f' := by
  have hstarted : ∀ (i : Nat) (p : Producer ρ), ps[i]? = some p → p.phase ≠ .finished →
      rank (.producer i) < k := by
    intro i p hp hphase
    refine Nat.lt_of_not_le fun hi => hphase ?_
    rw [h.missing i p hi hp, if_neg List.not_mem_nil]
  by_cases hproducer : ∃ i, a = .producer i
  · obtain ⟨i, rfl⟩ := hproducer
    cases hstep with
    | @write _ p hp hphase =>
        have hi := hstarted i p hp (by simp [hphase])
        exact ⟨hi, _, .write ((h.producer i hi).symm.trans hp) hphase⟩
    | @handOver _ p m q r hp hheld hq hroom =>
        have hphase : p.phase ≠ .finished := by
          intro hphase
          simp [Producer.held?, hphase] at hheld
        have hi := hstarted i p hp hphase
        exact ⟨hi, _, .handOver ((h.producer i hi).symm.trans hp) hheld hq hroom⟩
  · have hne : ∀ i, a ≠ .producer i := fun i hi => hproducer ⟨i, hi⟩
    refine ⟨?_, _, (hstep.with_producers hne f.producers).2⟩
    cases a with
    | producer i => exact absurd rfl (hne i)
    | screen => exact Nat.zero_lt_of_lt hk
    | dispatcher => exact hk
    | coEditor c =>
        have hlt := c.index_lt
        simp only [rank, Category.count] at hk hlt ⊢
        omega

omit [CategorySource ρ] [Payload α] in
theorem WithoutProducers.standing_eq {a : Actor} (h : WithoutProducers k marks f ps)
    (ha : rank a < k) : Floor.standing { f with producers := ps } a = f.standing a := by
  cases a with
  | screen => rfl
  | coEditor c => rfl
  | dispatcher => rfl
  | producer i => simp only [Floor.standing, h.producer i ha]

/-! ### All cases -/

/-- What a started stage does it can also do beside stand-ins. -/
theorem Covers.step {a : Actor} (h : Covers k marks f v) (ha : rank a < k)
    (hstep : Floor.Step sink f a f') : ∃ v', Floor.Step sink v a v' ∧ Covers k marks f' v' := by
  cases h with
  | nobody hk hmarks =>
      rw [hk] at ha
      cases ha
  | withoutDispatcher hpos hk h =>
      obtain ⟨v', hstep', h'⟩ := h.step hk ha hstep
      exact ⟨v', hstep', .withoutDispatcher hpos hk h'⟩
  | withoutProducers hk h =>
      obtain ⟨ps', hstep', h'⟩ := h.step ha hstep
      exact ⟨_, hstep', .withoutProducers hk h'⟩

/-- An end mark from the launcher is that of a stand-in, or one that was sent before. -/
theorem Covers.mark (h : Covers k (p :: marks) f v) (hv : v.Orderly)
    (hinsert : f.insert? p .done = some f') :
    ∃ v', (v' = v ∨ ∃ a, Floor.Step sink v a v') ∧ Covers k marks f' v' := by
  cases h with
  | nobody hk hmarks => cases hmarks
  | withoutDispatcher hpos hk h =>
      obtain ⟨v', hsent, h'⟩ := h.mark hpos hinsert
      exact ⟨v', hsent, .withoutDispatcher hpos hk h'⟩
  | withoutProducers hk h =>
      obtain ⟨ps', a, hstep, h'⟩ := h.mark hv hinsert
      exact ⟨_, .inr ⟨a, hstep⟩, .withoutProducers hk h'⟩

/-- The next end mark can be sent, or the screen manager can make room for it. -/
theorem Covers.mark_or_step (h : Covers k (p :: marks) f v) (hv : v.Orderly)
    (hcalm : f.screen.Calm) :
    (∃ f', f.insert? p .done = some f') ∨
      rank .screen < k ∧ ∃ f', Floor.Step sink f .screen f' := by
  cases h with
  | nobody hk hmarks => cases hmarks
  | withoutDispatcher hpos hk h =>
      rcases h.mark_or_step hpos hv hcalm with hinsert | hstep
      · exact .inl hinsert
      · exact .inr ⟨hpos, hstep⟩
  | withoutProducers hk h => exact .inl (h.exists_mark hv)

omit [CategorySource ρ] [Payload α] in
/-- Stand-ins do not change how a started stage stands. -/
theorem Covers.standing_eq {a : Actor} (h : Covers k marks f v) (ha : rank a < k) :
    v.standing a = f.standing a := by
  cases h with
  | nobody hk hmarks =>
      rw [hk] at ha
      cases ha
  | withoutDispatcher hpos hk h => exact h.standing_eq hk ha
  | withoutProducers hk h => exact h.standing_eq ha

omit [CategorySource ρ] [Payload α] in
/-- A dispatcher that was started has no stand-in. -/
theorem Covers.dispatcher_eq (h : Covers k marks f v) (ha : rank .dispatcher < k) :
    v.dispatcher = f.dispatcher ∧ v.sources = f.sources := by
  cases h with
  | nobody hk hmarks =>
      rw [hk] at ha
      cases ha
  | withoutDispatcher hpos hk h => exact absurd ha (Nat.not_lt.2 hk)
  | withoutProducers hk h => exact ⟨rfl, rfl⟩

omit [CategorySource ρ] [Payload α] in
/-- A screen manager that was started has no stand-in. -/
theorem Covers.screen_eq (h : Covers k marks f v) (hpos : 0 < k) : v.screen = f.screen := by
  cases h with
  | nobody hk hmarks =>
      rw [hk] at hpos
      cases hpos
  | withoutDispatcher hpos hk h => exact h.screen
  | withoutProducers hk h => rfl

omit [CategorySource ρ] [Payload α] in
/-- Looks of a dispatcher that was started are in vain with stand-ins exactly if they are
without. -/
theorem Covers.looksInVain_eq (h : Covers k marks f v) (ha : rank .dispatcher < k) :
    v.looksInVain = f.looksInVain := by
  obtain ⟨hdispatcher, hsources⟩ := h.dispatcher_eq ha
  simp only [Floor.looksInVain, hdispatcher, hsources]

/-- Once all end marks are sent, the started stages have ended or one of them can go on
and does not just look in vain. -/
theorem Covers.ended_or_step (h : Covers k [] f v) (hv : v.Orderly) (hcalm : f.screen.Calm) :
    (∀ a, rank a < k → f.standing a ≠ .working) ∨
      ∃ a f', rank a < k ∧ Floor.Step sink f a f' ∧ ¬ (a = .dispatcher ∧ f.looksInVain = true) := by
  rcases Nat.eq_zero_or_pos k with rfl | hpos
  · exact .inl fun a ha => absurd ha (Nat.not_lt_zero _)
  have hcalm' : v.screen.Calm := by rwa [h.screen_eq hpos]
  by_cases honly : Floor.OnlyVain sink v
  · refine .inl fun a ha => ?_
    rw [← h.standing_eq ha]
    exact hv.ended_of_onlyVain honly hcalm' a
  · simp only [Floor.OnlyVain, Classical.not_forall] at honly
    obtain ⟨a, v', hstep, hbusy⟩ := honly
    refine .inr ⟨a, ?_⟩
    cases h with
    | nobody hk hmarks =>
        rw [hk] at hpos
        cases hpos
    | withoutDispatcher hpos hk h =>
        obtain ⟨ha, hne, f', hstep'⟩ := h.of_step hstep hpos
        exact ⟨f', ha, hstep', fun hvain => hne hvain.1⟩
    | withoutProducers hk h =>
        obtain ⟨ha, f', hstep'⟩ := h.of_step hk hstep
        exact ⟨f', ha, hstep', hbusy⟩

omit [CategorySource ρ] [Payload α] in
/-- Reports do not matter. -/
theorem Covers.log (h : Covers k marks f v) (es : List Event) :
    Covers k marks (f.log es) (v.log es) := by
  cases h with
  | nobody hk hmarks => exact .nobody hk hmarks
  | withoutDispatcher hpos hk h => exact .withoutDispatcher hpos hk { h with }
  | withoutProducers hk h => exact .withoutProducers hk { h with }

end Newsroom.Launch

import Newsroom.Buffer.Session
import Newsroom.Proofs.Buffer.Completion

/-!
# Fan-in

Several threads insert, and a caller removes everything.

## Main Definitions

* `Merging` — threads of which the first only removes and the others only insert
* `merging` — the programs of the caller and of the threads that insert

## Main Statements

* `Merging.act` — every act keeps the threads to their kinds
* `fanIn_merges` — the caller removes what the others insert, that of each thread in its order
-/

namespace Newsroom.Buffer

variable {α : Type} {s : State α} {x : Act α}

/-- Threads of which the first only removes and the others only insert, with what they have done. -/
structure Merging (n : Nat) (s : State α) (acts : List (Nat × Act α)) : Prop where
  length : s.threads.length = n + 1
  kinds : ∀ (i : Nat) t, s.threads[i]? = some t → ∀ op ∈ t.program, op.isRemoval = decide (i = 0)
  popped : ∀ e ∈ pops acts, e.1 = 0
  pushed : ∀ e ∈ pushes acts, e.1 ≠ 0 ∧ e.1 ≤ n

theorem Merging.act {n i : Nat} {s' : State α} {acts : List (Nat × Act α)} (h : Merging n s acts)
    (hact : act? s i = some (x, s')) : Merging n s' (acts ++ [(i, x)]) := by
  obtain ⟨t, b', t', ht, hstep, rfl⟩ := act?_eq_some_iff.1 hact
  have hkinds := h.kinds i t ht
  refine
    { length := (List.length_set ..).trans h.length
      kinds := fun j u hu => ?_
      popped := fun e he => ?_
      pushed := fun e he => ?_ }
  · rw [getElem?_set_of_some ht] at hu
    split at hu
    · next heq =>
      cases hu
      exact fun op hop => heq ▸ hkinds op (hstep.program_suffix.subset hop)
    · exact h.kinds j u hu
  · rw [pops_concat] at he
    rcases List.mem_append.1 he with hold | hnew
    · exact h.popped e hold
    · obtain ⟨a, ha, rfl⟩ := List.mem_map.1 hnew
      by_cases hi : i = 0
      · exact hi
      · rw [hstep.popped_eq_nil (by simpa [hi] using hkinds)] at ha
        cases ha
  · rw [pushes_concat] at he
    rcases List.mem_append.1 he with hold | hnew
    · exact h.pushed e hold
    · obtain ⟨a, ha, rfl⟩ := List.mem_map.1 hnew
      obtain ⟨hlt, -⟩ := List.getElem?_eq_some_iff.1 ht
      rw [h.length] at hlt
      refine ⟨fun hi => ?_, Nat.le_of_lt_succ hlt⟩
      rw [hstep.pushed_eq_nil (by simpa [show i = 0 from hi] using hkinds)] at ha
      cases ha

/-- The programs of a caller that removes everything, and of threads that insert it. -/
def merging (streams : List (List α)) : List (List (Operation α)) :=
  List.replicate (exactSum (streams.map List.length)) .remove :: streams.map (List.map .insert)

/-- They leave the buffer as full as they find it. -/
theorem insertions_merging (streams : List (List α)) :
    insertions (merging streams) = removals (merging streams) := by
  have hput : ∀ as : List α, (as.map Operation.insert).filterMap Operation.message? = as := by
    intro as
    simp [List.filterMap_map, Function.comp_def, Operation.message?]
  have hnone : ∀ as : List α, (as.map Operation.insert).countP Operation.isRemoval = 0 := by
    intro as
    simp [List.countP_eq_zero, Operation.isRemoval]
  have hremovals : exactSum (streams.map fun as =>
      (as.map Operation.insert).countP Operation.isRemoval) = 0 :=
    exactSum_map_eq_zero fun as _ => hnone as
  simp only [insertions, removals, merging, List.map_cons, List.map_map, Function.comp_def,
    exactSum_cons, hput, hremovals]
  simp [Operation.message?, List.filterMap_replicate, List.countP_replicate, Operation.isRemoval]

theorem uniform_merging {streams : List (List α)} :
    ∀ program ∈ merging streams, Uniform program := by
  intro program hprogram
  rcases List.mem_cons.1 hprogram with rfl | hwriter
  · exact .inr fun op hop => List.eq_of_mem_replicate hop
  · obtain ⟨as, -, rfl⟩ := List.mem_map.1 hwriter
    refine .inl fun op hop => ?_
    obtain ⟨a, -, rfl⟩ := List.mem_map.1 hop
    rfl

theorem merging_of_trace? {streams : List (List α)} {b : Buffer α} {is : List Nat}
    {acts : List (Nat × Act α)}
    (htrace : trace? (State.start b (merging streams)) is = some (acts, s)) :
    Merging streams.length s acts := by
  refine trace_invariant (P := Merging streams.length) (J := []) (fun _ _ _ _ _ h => h.act) ?_
    htrace
  refine
    { length := by simp [State.start, merging]
      kinds := fun i t ht op hop => ?_
      popped := fun e he => nomatch he
      pushed := fun e he => nomatch he }
  rw [State.start, List.getElem?_map] at ht
  obtain ⟨program, hprogram, rfl⟩ := Option.map_eq_some_iff.1 ht
  cases i with
  | zero =>
      cases hprogram
      rw [List.eq_of_mem_replicate hop]
      rfl
  | succ i =>
      obtain ⟨as, -, rfl⟩ := List.mem_map.1 (List.mem_of_getElem? hprogram)
      obtain ⟨a, -, rfl⟩ := List.mem_map.1 hop
      rfl

/-- What the threads but the first have put in, by their places among these. -/
theorem Merging.messagesOf_pushes {n : Nat} {acts : List (Nat × Act α)} (h : Merging n s acts)
    (i : Nat) :
    messagesOf i ((pushes acts).map fun e => (e.1 - 1, e.2)) =
      messagesOf (i + 1) (pushes acts) := by
  rw [messagesOf, messagesOf, List.filter_map, List.map_map]
  congr 1
  refine List.filter_congr fun e he => ?_
  have hne := (h.pushed e he).1
  simp only [Function.comp_apply, decide_eq_decide]
  omega

/-- What the caller removes is what the other threads insert, that of each thread in its order, and
nothing is left. -/
theorem fanIn_merges {name : String} {capacity : UInt64} {b : Buffer α}
    (hmake : Buffer.make name capacity.toNat = .ok b) (streams : List (List α)) :
    ∃ moved : List (Nat × α), (b.fanIn streams).1 = moved.map Prod.snd ∧
      (∀ i, messagesOf i moved = streams[i]?.getD []) ∧
      (b.fanIn streams).2.AtRest capacity.toNat [] := by
  have hstart : (⟨b, { program := List.replicate (exactSum (streams.map List.length)) .remove } ::
      streams.map fun as => { program := as.map .insert }⟩ : State α) =
      State.start b (merging streams) := by
    simp [State.start, merging, Function.comp_def]
  obtain ⟨is, hrun⟩ := exists_run?_drive (State.start b (merging streams))
  obtain ⟨acts, htrace⟩ := exists_trace?_of_run? hrun
  obtain ⟨as, hbalanced⟩ := balance_of_reachable (atRest_of_make hmake) uniform_merging
    (Schedule.reachable_run? .start hrun)
  have heven := insertions_merging streams
  obtain ⟨hfinished, hrest, hleft⟩ := hbalanced.finished_of_stuck (toNat_lt_limit capacity)
    (drive_stuck _) (by simp only [List.length_nil]; omega) (by simp only [List.length_nil]; omega)
  obtain rfl : as = [] := by
    rw [List.length_nil] at hleft
    exact List.length_eq_zero_iff.1 (by omega)
  have hmerging := merging_of_trace? htrace
  have hrecounted := recounted_of_trace? htrace
  obtain ⟨as, haccounted, horder⟩ := ordered_of_trace? hmake htrace
  rw [← haccounted.ring.contents_eq, hrest.ring.contents_eq, List.append_nil] at horder
  have hidle : ∀ t ∈ (drive (State.start b (merging streams))).threads,
      t.program = [] ∧ t.phase = .ready := by
    intro t ht
    have hprogram := List.isEmpty_iff.1 (hfinished t ht)
    exact ⟨hprogram, (haccounted.fits t ht).phase_of_nil hprogram⟩
  rw [fanIn, hstart]
  refine ⟨(pushes acts).map fun e => (e.1 - 1, e.2), ?_, fun i => ?_, hrest⟩
  · obtain ⟨t, ht, -, hremoved⟩ := hrecounted 0 _ rfl
    have hall : (pops acts).filter (fun e => e.1 = 0) = pops acts :=
      List.filter_eq_self.2 fun e he => decide_eq_true (hmerging.popped e he)
    rw [messagesOf, hall, horder, Thread.inHand, (hidle t (List.mem_of_getElem? ht)).2,
      List.append_nil] at hremoved
    simp only [List.head?_eq_getElem?, ht, Option.map_some, Option.getD_some, List.map_map,
      Function.comp_def]
    exact hremoved.symm
  · rw [hmerging.messagesOf_pushes]
    cases hi : streams[i]? with
    | some as =>
        have hprogram : (merging streams)[i + 1]? = some (as.map .insert) := by
          simp [merging, hi]
        obtain ⟨t, ht, hput, -⟩ := hrecounted (i + 1) _ hprogram
        obtain ⟨hended, hphase⟩ := hidle t (List.mem_of_getElem? ht)
        rw [Thread.unpushed, Thread.due, hphase, hended, List.filterMap_nil,
          List.append_nil] at hput
        simpa [List.filterMap_map, Function.comp_def, Operation.message?] using hput
    | none =>
        have hle := List.getElem?_eq_none_iff.1 hi
        have hnone : (pushes acts).filter (fun e => e.1 = i + 1) = [] := by
          refine List.filter_eq_nil_iff.2 fun e he htag => ?_
          have htag := of_decide_eq_true htag
          have hbound := (hmerging.pushed e he).2
          omega
        rw [messagesOf, hnone]
        rfl

end Newsroom.Buffer

import Mathlib.Data.List.Chain
import Newsroom.Error

/-!
# What a report tells of its causes

An error that is put in contexts is reported with all of them, and with everything that lies behind
it.

## Main Definitions

* `Cause.Traced` — the causes that are found by going back step by step
* `Cause.Tells` — a report that ends with another
* `Error.IsBase` — an error that is in no context, and how many causes lie behind it
* `Error.Shows` — what can be seen of an error in its contexts

## Main Statements

* `Traced.isChain_tells` — along a chain of causes each report ends with the next
* `traced_iff` — going back from an error leads to its causes and to nothing else
* `message_foldl_within`, `exists_lineage_foldl_within` — the report and the causes of an error in
  contexts
* `hides_no_cause` — whichever way an error is put in contexts, it shows the same

## Design Notes

Putting an error in one more context adds one cause in front, the error itself, and leaves the
causes behind it as they were.  What a row of contexts does is therefore stated for an error that
may be in contexts already, and proved by induction on the contexts that are still to come.
-/

namespace Newsroom

/-! ### Going back step by step -/

namespace Cause

/-- Each cause is what the one before it goes back to, and the last one goes back to nothing. -/
inductive Traced : Cause → List Cause → Prop
  | last {c : Cause} (h : c.source? = none) : Traced c []
  | step {c d : Cause} {ds : List Cause} (h : c.source? = some d) (rest : Traced d ds) :
      Traced c (d :: ds)

/-- Going back leads to one chain of causes only. -/
theorem Traced.unique {c : Cause} {ds ds' : List Cause} (h : Traced c ds) (h' : Traced c ds') :
    ds = ds' := by
  induction h generalizing ds' with
  | last hnone =>
      cases h' with
      | last => rfl
      | step hsome => cases hnone.symm.trans hsome
  | step hsome _ ih =>
      cases h' with
      | last hnone => cases hnone.symm.trans hsome
      | step hsome' rest' =>
          cases hsome.symm.trans hsome'
          rw [ih rest']

/-- The report of a cause ends with the report of another. -/
def Tells (c d : Cause) : Prop := ∃ front : String, c.message = front ++ d.message

/-- A report ends with that of what it goes back to. -/
theorem tells_of_source? {c d : Cause} (h : c.source? = some d) : c.Tells d := by
  cases c with
  | error e =>
      cases e with
      | config fault => cases h
      | parse line fault => cases h
      | system fault =>
          cases h
          exact ⟨"IO error: ", rfl⟩
      | pipeline fault =>
          cases h
          exact ⟨"Pipeline error: ", rfl⟩
      | inContext context source =>
          cases h
          exact ⟨context ++ ": ", rfl⟩
  | pipeline fault =>
      cases fault with
      | zeroCapacity buffer => cases h
      | spawn stage cause =>
          cases h
          exact ⟨"Failed to spawn stage '" ++ stage ++ "': ", rfl⟩
      | stagePanicked stage => cases h
  | system fault => cases h

/-- Along a chain of causes each report ends with the next. -/
theorem Traced.isChain_tells {c : Cause} {ds : List Cause} (h : Traced c ds) :
    (c :: ds).IsChain Tells := by
  induction h with
  | last => exact .singleton _
  | step hsource _ ih => exact .cons_cons (tells_of_source? hsource) ih

end Cause

namespace Error

theorem traced_causes (e : Error) : Cause.Traced (.error e) e.causes := by
  induction e with
  | config fault => exact .last rfl
  | parse line fault => exact .last rfl
  | system fault => exact .step rfl (.last rfl)
  | pipeline fault =>
      cases fault with
      | zeroCapacity buffer => exact .step rfl (.last rfl)
      | spawn stage cause => exact .step rfl (.step rfl (.last rfl))
      | stagePanicked stage => exact .step rfl (.last rfl)
  | inContext context source ih => exact .step rfl ih

/-- Going back from an error leads to its causes and to nothing else. -/
theorem traced_iff {e : Error} {ds : List Cause} : Cause.Traced (.error e) ds ↔ ds = e.causes := by
  constructor
  · intro h
    exact h.unique e.traced_causes
  · rintro rfl
    exact e.traced_causes

/-! ### One context after the other -/

/-- An error and the causes behind it. -/
def lineage (e : Error) : List Cause := .error e :: e.causes

/-- The contexts are reported in front, the last one first. -/
theorem message_foldl_within (contexts : List String) (e : Error) :
    (contexts.foldl within e).message =
      String.join (contexts.reverse.map (· ++ ": ")) ++ e.message := by
  induction contexts generalizing e with
  | nil => simp
  | cons c cs ih =>
      have hfirst : (e.within c).message = (c ++ ": ") ++ e.message := rfl
      have hlast : String.join ((c :: cs).reverse.map (· ++ ": ")) =
          String.join (cs.reverse.map (· ++ ": ")) ++ (c ++ ": ") := by
        rw [List.reverse_cons, List.map_append, String.join_append, List.map_singleton,
          String.join_cons, String.join_nil, String.append_empty]
      rw [List.foldl_cons, ih, hfirst, hlast, ← String.append_assoc]

/-- Every context stands for one cause in front of those that were there already. -/
theorem exists_lineage_foldl_within (contexts : List String) (e : Error) :
    ∃ outer : List Cause, outer.length = contexts.length ∧
      (contexts.foldl within e).lineage = outer ++ e.lineage := by
  induction contexts generalizing e with
  | nil => exact ⟨[], rfl, rfl⟩
  | cons c cs ih =>
      obtain ⟨outer, hlength, hlineage⟩ := ih (e.within c)
      have hfirst : (e.within c).lineage = [.error (e.within c)] ++ e.lineage := rfl
      refine ⟨outer ++ [.error (e.within c)], ?_, ?_⟩
      · rw [List.length_append, hlength, List.length_singleton, List.length_cons]
      · rw [List.foldl_cons, hlineage, hfirst, List.append_assoc]

theorem length_causes_foldl_within (contexts : List String) (e : Error) :
    (contexts.foldl within e).causes.length = contexts.length + e.causes.length := by
  obtain ⟨outer, hlength, hlineage⟩ := exists_lineage_foldl_within contexts e
  have hcount := congrArg List.length hlineage
  rw [lineage, lineage, List.length_append, List.length_cons, List.length_cons] at hcount
  omega

/-- Behind the contexts stand the error and its causes. -/
theorem drop_lineage (contexts : List String) (e : Error) :
    (contexts.foldl within e).lineage.drop contexts.length = e.lineage := by
  obtain ⟨outer, hlength, hlineage⟩ := exists_lineage_foldl_within contexts e
  rw [hlineage, ← hlength, List.drop_left]

/-- An error that is in no context, with the number of causes behind it. -/
inductive IsBase : Error → Nat → Prop
  | config (fault : ConfigFault) : IsBase (.config fault) 0
  | parse (line : Nat) (fault : DescriptorFault) : IsBase (.parse line fault) 0
  | system (fault : SystemFault) : IsBase (.system fault) 1
  | zeroCapacity (buffer : String) : IsBase (.pipeline (.zeroCapacity buffer)) 1
  | stagePanicked (stage : String) : IsBase (.pipeline (.stagePanicked stage)) 1
  | spawn (stage : String) (cause : SystemFault) : IsBase (.pipeline (.spawn stage cause)) 2

theorem IsBase.length_causes {e : Error} {k : Nat} (h : e.IsBase k) : e.causes.length = k := by
  cases h <;> rfl

/-- What can be seen of an error in contexts: all of them in front of the report of the base, and
a chain of causes that leads through all of them to the base and to the `behind` causes behind it,
none of which is missing from the report of the one before it. -/
structure Shows (e base : Error) (behind : Nat) (contexts : List String) : Prop where
  message : e.message = String.join (contexts.reverse.map (· ++ ": ")) ++ base.message
  traced : ∀ ds, Cause.Traced (.error e) ds ↔ ds = e.causes
  length_causes : e.causes.length = contexts.length + behind
  base_behind : e.lineage.drop contexts.length = base.lineage
  tells : e.lineage.IsChain Cause.Tells

theorem IsBase.shows {base : Error} {k : Nat} (h : base.IsBase k) (contexts : List String) :
    (contexts.foldl within base).Shows base k contexts where
  message := message_foldl_within contexts base
  traced := fun _ => traced_iff
  length_causes := by rw [length_causes_foldl_within, h.length_causes]
  base_behind := drop_lineage contexts base
  tells := (traced_causes _).isChain_tells

end Error

/-! ### Three ways into a context -/

namespace Outcome

variable {α : Type}

/-- It does not matter whether a context is made before it is known to be needed. -/
theorem withContext_eq_context {ε : Type} [ErrorKind ε] (r : Except ε α) (c : String) :
    (withContext r fun _ => c) = context r c := by
  cases r <;> rfl

theorem foldl_context (contexts : List String) (e : Error) :
    contexts.foldl context (.error e : Outcome α) = .error (contexts.foldl Error.within e) := by
  induction contexts generalizing e with
  | nil => rfl
  | cons c cs ih => exact ih (e.within c)

/-- A base error shows all its contexts and all that lies behind it, whether it is put in them one
after the other as an error, as the failure of an outcome, or as such a failure with contexts that
are made only for it.  The same holds of a fault that becomes the base error with its first
context. -/
theorem hides_no_cause {base : Error} {behind : Nat} (hbase : base.IsBase behind)
    (contexts : List String) :
    ∃ e : Error, e.Shows base behind contexts ∧
      contexts.foldl Error.within base = e ∧
      contexts.foldl context (.error base : Outcome α) = .error e ∧
      contexts.foldl (fun r c => withContext r fun _ => c) (.error base : Outcome α) = .error e ∧
      ∀ {ε : Type} [ErrorKind ε] (fault : ε) (c : String) (cs : List String),
        ErrorKind.toError fault = base → contexts = c :: cs →
          cs.foldl context (context (.error fault : Except ε α) c) = .error e ∧
          cs.foldl (fun r c => withContext r fun _ => c)
            (withContext (.error fault : Except ε α) fun _ => c) = .error e := by
  simp only [withContext_eq_context]
  have hcontext := foldl_context (α := α) contexts base
  refine ⟨contexts.foldl Error.within base, hbase.shows contexts, rfl, hcontext, hcontext, ?_⟩
  rintro ε _ fault c cs rfl rfl
  -- with its first context the fault is an error, and goes the way of errors from there
  have hfault := foldl_context (α := α) cs ((ErrorKind.toError fault).within c)
  exact ⟨hfault, hfault⟩

/-- A stage that could not be started, in two contexts. -/
theorem hides_no_cause_spawn :
    ∃ e : Error,
      context (context (.error (.spawn "dispatcher" .tryAgain) : Except PipelineFault Unit)
          "Pipeline failed") "evening" = .error e ∧
        e.message = "evening: Pipeline failed: Pipeline error: " ++
          "Failed to spawn stage 'dispatcher': Resource temporarily unavailable (os error 11)" ∧
        e.causes.length = 4 := by
  obtain ⟨e, hshows, -, -, -, hfault⟩ :=
    hides_no_cause (α := Unit) (.spawn "dispatcher" .tryAgain) ["Pipeline failed", "evening"]
  obtain ⟨hcontext, -⟩ :=
    hfault (PipelineFault.spawn "dispatcher" .tryAgain) "Pipeline failed" ["evening"] rfl rfl
  refine ⟨e, hcontext, ?_, hshows.length_causes⟩
  rw [hshows.message]
  decide +kernel

end Outcome

end Newsroom

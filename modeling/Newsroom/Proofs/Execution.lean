import Newsroom.CommandLine.Program
import Newsroom.Proofs.Capacities
import Newsroom.Proofs.Launch.Outcome
import Newsroom.Proofs.Launch.Run
import Newsroom.Proofs.Numbering

/-!
# The program from its configuration to its lines

What a run of the program prints for a configuration that was loaded.

## Main Statements

* `Launch.given_of_returned`, `Launch.inSequence_of_returned` — what the display was given in the
  end: articles, those of one kind numbered in order, and then the last line
* `CommandLine.losses_eq_nil_iff` — when no losses are reported
* `CommandLine.execute_eq` — the program ends with a launch that has returned, and without losses
* `CommandLine.execute_prints` — it prints a line for each article and the last line
-/

namespace Newsroom

/-! ### The display -/

/-- A display that accepts every line has accepted what it was given. -/
theorem Screen.accepted_of_accept {α : Type} {sink : Sink} (h : ∀ n, sink n = .accept)
    (s : Screen α) : s.accepted sink = s.given := by
  have hall : ∀ m ∈ s.given.zipIdx, decide (sink m.2 = .accept) = true := fun m _ => by simp [h]
  rw [Screen.accepted, List.filter_eq_self.2 hall, List.zipIdx_map_fst]

namespace Launch

variable {ρ : Type} [SeededSource ρ] {c : Config} {o : Overrides} {randomSeed : UInt64}
  {p : Pipeline Article} {setup : Setup} {l : Launch ρ Article}

/-- In the end the display was given articles and then its last line. -/
theorem given_of_returned (hbuild : Pipeline.build c o randomSeed = .ok p)
    (hable : setup.failAt = none) (hsink : setup.sink.NeverPanics)
    (hreach : Schedule.Reachable (step? setup) (ofPipeline p) l)
    (hreturned : l.result?.isSome = true) :
    l.given = (bodies l.given).map .item ++ [.done] := by
  have hlink : Link 1 (l.given.countP Message.isDone) 0 l.given :=
    (truthful_of_reachable hbuild hreach).lastLine
  rw [countP_isDone_of_returned hbuild hable hsink hreach hreturned] at hlink
  exact hlink.eq_items_append_done

/-- If no two producers have one number, the lines of articles are in sequence in the end. -/
theorem inSequence_of_returned (hbuild : Pipeline.build c o randomSeed = .ok p)
    (hable : setup.failAt = none) (hsink : setup.sink.NeverPanics)
    (hids : (c.producers.map ProducerSpec.id).Nodup)
    (hreach : Schedule.Reachable (step? setup) (ofPipeline p) l)
    (hreturned : l.result?.isSome = true) :
    inSequence ((bodies l.given).map Article.text) = true := by
  have hregular := regular_of_reachable hable hsink (regular_ofPipeline hbuild) hreach
  obtain ⟨-, hdrained, -⟩ := hregular.drained_of_returned hreturned
  -- the number of an article is that of the producer at its place
  have hspec : ∀ a ∈ bodies l.given, (c.producers.map ProducerSpec.id)[a.origin]? = some a.id := by
    intro a ha
    have hlt := origin_lt_of_given hbuild hreach (mem_bodies.1 ha)
    have hget := List.getElem?_eq_getElem hlt
    have hown : a ∈ articlesBy a.origin a.category l.given :=
      List.mem_filter.2 ⟨ha, by simp [Article.isOf]⟩
    rw [given_of_drained hbuild hreach hdrained hget] at hown
    obtain ⟨k, -, hk⟩ := List.mem_map.1 hown
    rw [List.getElem?_map, hget]
    exact congrArg (fun b => some (Article.id b)) hk
  refine inSequence_text (fun i d => ?_) fun a ha b hb heq => ?_
  · have harticles := articlesBy_given_of_drained hbuild hreach hdrained i d
    split at harticles
    · exact ⟨_, _, harticles⟩
    · exact ⟨0, 0, harticles⟩
  · have ha' := hspec a ha
    have hb' := hspec b hb
    obtain ⟨hlt, -⟩ := List.getElem?_eq_some_iff.1 ha'
    exact (List.getElem?_inj hlt hids).1 (by rw [ha', hb', heq])

end Launch

/-! ### The program -/

namespace CommandLine

theorem hasLosses_eq_ok_false_iff {r : Report} :
    hasLosses r = .ok false ↔
      r.dispatch.dropped = 0 ∧ r.screen.writeErrors = 0 ∧ r.isConserved = .ok true := by
  unfold hasLosses
  by_cases hlost : 0 < r.dispatch.dropped ∨ 0 < r.screen.writeErrors
  · simp [hlost]
    omega
  · have hnone : r.dispatch.dropped = 0 ∧ r.screen.writeErrors = 0 := by omega
    cases hconserved : r.isConserved with
    | error e => simp [hnone, Except.map]
    | ok conserved => simp [hnone, Except.map]

/-- No losses are reported exactly if nothing was dropped, every line was accepted and the sums add
up. -/
theorem losses_eq_nil_iff {r : Report} :
    losses r = .ok [] ↔
      r.dispatch.dropped = 0 ∧ r.screen.writeErrors = 0 ∧ r.isConserved = .ok true := by
  rw [← hasLosses_eq_ok_false_iff, losses]
  cases hasLosses r with
  | error e => exact ⟨(nomatch ·), (nomatch ·)⟩
  | ok lost =>
      cases lost with
      | false => exact ⟨fun _ => rfl, fun _ => rfl⟩
      | true =>
          cases r.producedTotal with
          | error e => exact ⟨(nomatch ·), (nomatch ·)⟩
          | ok n => exact ⟨(nomatch ·), (nomatch ·)⟩

variable [DocumentLibrary] {options : Options} {contents : Except SystemFault ByteArray}
  {c : Config} {n : Nat}

/-- With a configuration that was loaded the program ends with a launch that has returned, and
reports no losses. -/
theorem execute_eq (hload : (Config.load options.config contents).value = .ok c)
    (htotal : c.totalMessages = .ok n) (randomSeed : UInt64) :
    ∃ (p : Pipeline Article) (l : Launch Generator Article),
      Pipeline.build c options.overrides randomSeed = .ok p ∧
        Schedule.Reachable (Launch.step? standardOutput) (Launch.ofPipeline p) l ∧
        l.result?.isSome = true ∧ l.given.length = n + 1 ∧
        execute options contents randomSeed =
          { exitCode := 0
            lines := l.given.map Message.text
            events := (Config.load options.config contents).events ++ l.floor.events } := by
  obtain ⟨p, hbuild⟩ := Pipeline.exists_build (α := Article) (Config.hasRoom_of_load hload)
    options.overrides randomSeed
  have hreach :=
    Launch.reachable_run standardOutput (Launch.ofPipeline p : Launch Generator Article)
  have hable : standardOutput.failAt = none := rfl
  have hreturned :=
    (Launch.regular_ofPipeline (ρ := Generator) hbuild).staffed.returned_run hable
  have haccept : ∀ n, standardOutput.sink n = .accept := fun _ => rfl
  have hsink : standardOutput.sink.NeverPanics := fun _ h => by cases h
  obtain ⟨hresult, hlength⟩ := Launch.result?_eq_outcome hbuild hable hsink hreach hreturned
  have haccounts := Pipeline.outcome_accounts Generator htotal p.seed standardOutput.sink
  have hlosses : losses (Pipeline.outcome Generator p.seed c.producers standardOutput.sink) =
      .ok [] := by
    refine losses_eq_nil_iff.2 ⟨haccounts.dropped, ?_, haccounts.conserved⟩
    have hnone : ∀ k, standardOutput.sink.refusals k = 0 := fun k =>
      List.countP_eq_zero.2 fun i _ => Bool.false_ne_true
    exact hnone _
  refine ⟨p, _, hbuild, hreach, hreturned, ?_, ?_⟩
  · have hdisplayed := haccounts.displayed
    rw [hlength]
    exact congrArg (· + 1) hdisplayed
  · have hlines : (Launch.run standardOutput (Launch.ofPipeline p)).lines standardOutput =
        (Launch.run standardOutput (Launch.ofPipeline p)).given.map Message.text := by
      rw [Launch.lines, Screen.accepted_of_accept haccept]
      rfl
    simp only [execute, hload, hbuild, hresult, finished, hlosses, hlines, List.append_nil]

/-- With a configuration that was loaded the program ends without an error.  It prints a line for
each article, and then the last line; if no two producers have one number, the lines are in
sequence. -/
theorem execute_prints (hload : (Config.load options.config contents).value = .ok c)
    (htotal : c.totalMessages = .ok n) (randomSeed : UInt64) :
    (execute options contents randomSeed).exitCode = 0 ∧
      (execute options contents randomSeed).errorLine = none ∧
      ∃ lines : List String, (execute options contents randomSeed).lines = lines ++ ["DONE"] ∧
        lines.length = n ∧ ((c.producers.map ProducerSpec.id).Nodup → inSequence lines = true) := by
  obtain ⟨p, l, hbuild, hreach, hreturned, hlength, hexecute⟩ := execute_eq hload htotal randomSeed
  have hsink : standardOutput.sink.NeverPanics := fun _ h => by cases h
  have hgiven := Launch.given_of_returned hbuild rfl hsink hreach hreturned
  rw [hexecute]
  refine ⟨rfl, rfl, (bodies l.given).map Article.text, ?_, ?_, fun hids => ?_⟩
  · have hlines := congrArg (List.map Message.text) hgiven
    rw [List.map_append, List.map_map] at hlines
    exact hlines
  · rw [hgiven, List.length_append, List.length_map] at hlength
    rw [List.length_map]
    exact Nat.succ.inj hlength
  · exact Launch.inSequence_of_returned hbuild rfl hsink hids hreach hreturned

end CommandLine

end Newsroom

import Newsroom.Proofs.Bench.Moves
import Newsroom.Proofs.Build
import Newsroom.Proofs.Classification
import Newsroom.Proofs.Dispatch.Transcript

/-!
# The stream of a producer

A producer on the bench and a reader that empties its queue meanwhile, in any order.

## Main Definitions

* `numbered` — the articles that are made of some draws
* `Producer.Inserting` — where a producer stands, by what it has put into its queue
* `Bench.producing`, `Bench.produceMoves` — the producer on the bench, and what can happen
* `Bench.inserted` — what was put into the queue, whether it was collected or not
* `Bench.Produces` — the runs of such a bench
* `Bench.Streamed` — what comes of a producer

## Main Statements

* `numbered_concat`, `prefix_numbered` — a draw more, and any number of draws more
* `Inserting.write`, `Inserting.handedOver` — the two steps of a producer
* `Since.sum_add_remaining` — no article is counted twice and none is left out
* `streams_draws` — what is in the queue of a producer, and what it reports

## Design Notes

The category of an article and its number depend on the draws alone.  All that is said of the
queue follows from one equation: what was inserted, and what the producer holds, are the articles
of the draws that were made.
-/

namespace Newsroom

open Dispatcher (isTextOf)

variable {ρ α : Type}

/-! ### Articles of draws -/

/-- The articles that are made of some draws.  Each carries how many of its category were drawn
before it. -/
def numbered (origin : Nat) (id : UInt32) (cs : List Category) : List Article :=
  cs.mapIdx fun j c => ⟨origin, id, c, (cs.take j).countP fun d => d = c⟩

theorem length_numbered (origin : Nat) (id : UInt32) (cs : List Category) :
    (numbered origin id cs).length = cs.length :=
  List.length_mapIdx

/-- The articles of one draw more. -/
theorem numbered_concat (origin : Nat) (id : UInt32) (cs : List Category) (c : Category) :
    numbered origin id (cs ++ [c]) =
      numbered origin id cs ++ [⟨origin, id, c, cs.countP fun d => d = c⟩] := by
  rw [numbered, List.mapIdx_concat, List.take_left]
  congr 1
  refine List.ext_getElem (by simp [numbered]) fun j hj _ => ?_
  have hlt : j < cs.length := by simpa using hj
  simp [numbered, List.take_append_of_le_length (Nat.le_of_lt hlt)]

/-- The articles of more draws begin with those of fewer. -/
theorem prefix_numbered [CategorySource ρ] (origin : Nat) (id : UInt32) (g : ρ) {m n : Nat}
    (h : m ≤ n) : numbered origin id (draws m g) <+: numbered origin id (draws n g) := by
  induction h with
  | refl => exact List.prefix_rfl
  | step _ ih =>
      rw [draws_succ, numbered_concat]
      exact ih.trans (List.prefix_append _ _)

/-- An article is made of each draw, with its category. -/
theorem map_category_numbered (origin : Nat) (id : UInt32) (cs : List Category) :
    (numbered origin id cs).map Article.category = cs := by
  refine List.ext_getElem (by simp [numbered]) fun j _ _ => ?_
  simp [numbered]

/-- The messages with some articles. -/
def articleMessages [Payload α] (as : List Article) : List (Message α) :=
  as.map fun a => .item (Payload.ofArticle a)

theorem bodies_articleMessages [Payload α] (as : List Article) :
    (articleMessages as : List (Message α)).filterMap Message.body? = as.map Payload.ofArticle := by
  simp [articleMessages, List.filterMap_map, Function.comp_def]

/-- An article is a text of its own category. -/
theorem countP_isTextOf_articleMessages [Payload α] (as : List Article) (c : Category) :
    (articleMessages as : List (Message α)).countP (isTextOf c) =
      (as.map Article.category).countP fun d => d = c := by
  simp [articleMessages, List.countP_map, Function.comp_def, isTextOf, Payload.text_ofArticle,
    Article.classify_text]

/-! ### Counters -/

/-- A count that is below the limit together with all others can be increased. -/
theorem Tally.increase_one {t : Tally} (h : t.sum + 1 < Word.limit) (c : Category) :
    t.increase c 1 = .ok (t.bump c) := by
  have hle : t.get c ≤ t.sum := by cases c <;> simp [Tally.sum, ByCategory.get] <;> omega
  rw [Tally.increase, Word.add, if_pos (by omega)]
  rfl

namespace Producer

variable [CategorySource ρ] {p₀ p : Producer ρ}

/-- No article is counted twice and none is left out. -/
theorem Since.sum_add_remaining (h : Since p₀ p) : p.emitted.sum + p.remaining = p₀.remaining := by
  have hle := h.remaining_le
  rw [h.emitted, Tally.sum_ofList, length_draws]
  omega

/-! ### Insertions -/

/-- What a producer has written: the articles of its draws, and its end mark when it ends. -/
def written [Payload α] (p₀ p : Producer ρ) : List (Message α) :=
  articleMessages (numbered p₀.origin p₀.id (draws (p₀.remaining - p.remaining) p₀.source)) ++
    if p.phase = .closing ∨ p.phase = .finished then [.done] else []

theorem bodies_written [Payload α] (p₀ p : Producer ρ) :
    (written p₀ p : List (Message α)).filterMap Message.body? =
      (numbered p₀.origin p₀.id (draws (p₀.remaining - p.remaining) p₀.source)).map
        Payload.ofArticle := by
  rw [written, List.filterMap_append, bodies_articleMessages]
  split <;> simp

/-- A producer has put into its queue what it has written, but for what it holds. -/
structure Inserting [Payload α] (p₀ p : Producer ρ) (inserted : List (Message α)) : Prop where
  since : Since p₀ p
  origin : p.origin = p₀.origin
  written : inserted ++ p.held = written p₀ p

variable [Payload α] {inserted : List (Message α)} {m : Message α}

theorem Inserting.start (hemitted : p.emitted = Tally.zero) (hphase : p.phase = .writing) :
    Inserting p p ([] : List (Message α)) where
  since := .start hemitted hphase
  origin := rfl
  written := by
    rw [Producer.written, Nat.sub_self]
    simp [held, held?, hphase, articleMessages, draws, numbered]

/-- A message more is written. -/
theorem Inserting.write (h : Inserting p₀ p inserted) (hphase : p.phase = .writing) :
    Inserting p₀ p.write inserted := by
  refine
    { since := h.since.write
      origin := p.write_kept.2.trans h.origin
      written := ?_ }
  have hbefore := h.written
  have hnone : (p.held : List (Message α)) = [] := by simp [held, held?, hphase]
  rw [hnone, List.append_nil, Producer.written] at hbefore
  cases hn : p.remaining with
  | zero =>
      rw [hbefore, write_of_zero hn]
      simp [Producer.written, held, held?, hphase]
  | succ n =>
      -- one draw more than before, and its number is the count of the draws before
      have hdraws : p₀.remaining - n = p₀.remaining - p.remaining + 1 := by
        have hle := h.since.remaining_le
        omega
      have hcount : ∀ c, p.emitted.get c =
          (draws (p₀.remaining - p.remaining) p₀.source).countP fun d => d = c := by
        intro c
        rw [h.since.emitted, Tally.get_ofList]
      rw [hbefore, Producer.write, hn]
      simp [Producer.written, held, held?, hphase, articleMessages, hn, hdraws, draws_succ,
        numbered_concat, hcount, h.since.source, h.since.id, h.origin]

/-- The message that was written is put into the queue. -/
theorem Inserting.handedOver (h : Inserting p₀ p inserted) (hheld : p.held? = some m) :
    Inserting p₀ p.handedOver (inserted ++ [m]) := by
  obtain ⟨hbefore, hafter⟩ := held_handedOver hheld
  refine
    { since := h.since.handedOver
      origin := p.handedOver_kept.2.2.trans h.origin
      written := ?_ }
  have hwritten := h.written
  rw [hbefore] at hwritten
  rw [hafter, List.append_nil, hwritten]
  -- the end mark counts as written from the time when it is held
  rcases held?_cases hheld with ⟨a, hphase, -⟩ | ⟨hphase, -⟩ <;>
    simp [Producer.written, Producer.handedOver, hphase]

/-- What a finished producer has put into its queue. -/
theorem Inserting.finished (h : Inserting p₀ p inserted) (hphase : p.phase = .finished) :
    inserted = articleMessages (numbered p₀.origin p₀.id (draws p₀.remaining p₀.source)) ++
      [.done] := by
  have hwritten := h.written
  have hzero := h.since.ending (.inr hphase)
  rw [Producer.written, hzero, Nat.sub_zero, if_pos (.inr hphase)] at hwritten
  rwa [held, held?, hphase, Option.toList_none, List.append_nil] at hwritten

end Producer

/-! ### The producer on the bench -/

namespace Bench

/-- A producer with its queue on the bench before its first article. -/
def producing (spec : ProducerSpec) (g : ρ) (queue : Queue (Message α)) : Bench ρ α where
  floor :=
    { (bare : Floor ρ α) with producers := [Producer.ofSpec 0 spec g], sources := [queue] }

/-- The producer takes a step, or the reader takes a message. -/
def produceMoves : List Move := [.act (.producer 0), .collect (.source 0)]

/-- All that was put into the queue of the producer, in order. -/
def inserted (b : Bench ρ α) : List (Message α) :=
  b.collectedFrom (.source 0) ++ b.floor.sources.flatMap Queue.items

/-- How the bench stands with a producer and its queue. -/
structure Streaming [CategorySource ρ] [Payload α] (spec : ProducerSpec) (g : ρ) (b : Bench ρ α)
    (p : Producer ρ) (q : Queue (Message α)) : Prop where
  producers : b.floor.producers = [p]
  sources : b.floor.sources = [q]
  room : 0 < q.capacity
  inserting : Producer.Inserting (.ofSpec 0 spec g) p b.inserted

/-- The runs of a producer and the reader of its queue. -/
def Produces [CategorySource ρ] [Payload α] (sink : Sink) (spec : ProducerSpec) (g : ρ)
    (ms : List Move) (b : Bench ρ α) : Prop :=
  ∃ name queue, Queue.make name spec.queueSize.toNat = .ok queue ∧ (∀ m ∈ ms, m ∈ produceMoves) ∧
    Schedule.run? (step? sink) (producing spec g queue) ms = some b

/-- What comes of a producer that has finished. -/
structure Streamed [CategorySource ρ] [Payload α] (spec : ProducerSpec) (g : ρ) (b : Bench ρ α)
    (p : Producer ρ) : Prop where
  inserted : b.inserted =
    articleMessages (numbered 0 spec.id (draws spec.messages.toNat g)) ++ [.done]
  count : (b.inserted.filterMap Message.body?).length = spec.messages.toNat
  id : p.report.id = spec.id
  emitted : ∀ c, p.report.emitted.get c = b.inserted.countP (isTextOf c)
  total : p.report.emitted.total = .ok spec.messages.toNat

variable [CategorySource ρ] [Payload α] {sink : Sink} {spec : ProducerSpec} {g : ρ}
  {b b' : Bench ρ α} {p : Producer ρ} {q : Queue (Message α)}

theorem Streaming.start (hroom : 0 < q.capacity) (hempty : q.items = []) :
    Streaming spec g (producing spec g q : Bench ρ α) (.ofSpec 0 spec g) q where
  producers := rfl
  sources := rfl
  room := hroom
  inserting := by
    have hnone : (producing spec g q : Bench ρ α).inserted = [] := by
      simp [inserted, producing, collectedFrom, hempty]
    rw [hnone]
    exact .start rfl rfl

/-- A step of the producer. -/
theorem Streaming.act (h : Streaming spec g b p q)
    (hstep : step? sink b (.act (.producer 0)) = some b') : ∃ p' q', Streaming spec g b' p' q' := by
  obtain ⟨f, hfloor, rfl⟩ := act_eq_some_iff.1 hstep
  cases hfloor with
  | @write _ p' hp hphase =>
      obtain rfl : p = p' := by simpa [h.producers] using hp
      exact ⟨p.write, q,
        { producers := by simp [h.producers]
          sources := h.sources
          room := h.room
          inserting := h.inserting.write hphase }⟩
  | @handOver _ p' m q' r hp hheld hq hr =>
      obtain rfl : p = p' := by simpa [h.producers] using hp
      obtain rfl : q = q' := by simpa [h.sources] using hq
      obtain ⟨hitems, hcapacity, -, -⟩ := Queue.items_insert? hr
      refine ⟨p.handedOver, r,
        { producers := by simp [h.producers]
          sources := by simp [h.sources]
          room := by rw [hcapacity]; exact h.room
          inserting := ?_ }⟩
      have hnext := h.inserting.handedOver hheld
      rw [inserted, h.sources] at hnext
      simpa [inserted, collectedFrom, h.sources, hitems] using hnext

/-- The reader changes nothing of what was put into the queue. -/
theorem Streaming.collect (h : Streaming spec g b p q)
    (hstep : step? sink b (.collect (.source 0)) = some b') : ∃ q', Streaming spec g b' p q' := by
  obtain ⟨q', m, r, hq, hr, rfl⟩ := collect_eq_some_iff.1 hstep
  obtain rfl : q = q' := by simpa [Floor.queue?, h.sources] using hq
  obtain ⟨hitems, hcapacity, -⟩ := Queue.items_remove? hr
  refine ⟨r,
    { producers := h.producers
      sources := by simp [Floor.setQueue, h.sources]
      room := by rw [hcapacity]; exact h.room
      inserting := ?_ }⟩
  have hsame := h.inserting
  rw [inserted, h.sources] at hsame
  simpa [inserted, collectedFrom, Floor.setQueue, h.sources, hitems] using hsame

/-- Unless the producer has finished it can take a step, or else the reader can. -/
theorem Streaming.progress (h : Streaming spec g b p q) (sink : Sink)
    (hphase : p.phase ≠ .finished) :
    ∃ m ∈ produceMoves, ∃ b', step? sink b m = some b' := by
  have hp : b.floor.producers[0]? = some p := by simp [h.producers]
  have hq : b.floor.queue? (.source 0) = some q := by simp [Floor.queue?, h.sources]
  have hact : ∀ f, Floor.Step sink b.floor (.producer 0) f →
      ∃ m ∈ produceMoves, ∃ b', step? sink b m = some b' := fun f hfloor =>
    ⟨.act (.producer 0), by decide, _, act_eq_some_iff.2 ⟨f, hfloor, rfl⟩⟩
  have hhand : ∀ m : Message α, p.held? = some m →
      ∃ m ∈ produceMoves, ∃ b', step? sink b m = some b' := by
    intro m hheld
    rcases insert_or_collect hq h.room m with ⟨r, hr⟩ | ⟨b', hb'⟩
    · exact hact _ (.handOver hp hheld hq hr)
    · exact ⟨.collect (.source 0), by decide, b', hb'⟩
  cases hwhere : p.phase with
  | writing => exact hact _ (.write hp hwhere)
  | holding a => exact hhand (.item (Payload.ofArticle a)) (by rw [Producer.held?, hwhere])
  | closing => exact hhand .done (by rw [Producer.held?, hwhere])
  | finished => exact absurd hwhere hphase

/-! ### Outcomes -/

/-- The counters of a producer stay below the limit. -/
theorem Streaming.sum_add_remaining (h : Streaming spec g b p q) :
    p.emitted.sum + p.remaining = spec.messages.toNat ∧
      p.emitted.sum + p.remaining < Word.limit := by
  have hsum : p.emitted.sum + p.remaining = spec.messages.toNat :=
    h.inserting.since.sum_add_remaining
  refine ⟨hsum, ?_⟩
  rw [hsum]
  exact spec.messages.toNat_lt

theorem Streaming.total (h : Streaming spec g b p q) : p.emitted.total = .ok p.emitted.sum := by
  have hlimit := h.sum_add_remaining.2
  rw [Tally.total_eq, if_pos (by omega)]

/-- What comes of a producer that has finished. -/
theorem Streaming.streamed (h : Streaming spec g b p q) (hphase : p.phase = .finished) :
    Streamed spec g b p := by
  have hinserted : b.inserted =
      articleMessages (numbered 0 spec.id (draws spec.messages.toNat g)) ++ [.done] :=
    h.inserting.finished hphase
  have hemitted : p.emitted = Tally.ofList (draws spec.messages.toNat g) :=
    h.inserting.since.emitted_of_finished hphase
  refine
    { inserted := hinserted
      count := ?_
      id := h.inserting.since.id
      emitted := fun c => ?_
      total := ?_ }
  · rw [hinserted, List.filterMap_append, bodies_articleMessages]
    simp [length_numbered, length_draws]
  · rw [hinserted, List.countP_append, countP_isTextOf_articleMessages, map_category_numbered]
    show p.emitted.get c = _
    rw [hemitted, Tally.get_ofList]
    rfl
  · show p.emitted.total = _
    rw [h.total, hemitted, Tally.sum_ofList, length_draws]

/-- What has been inserted so far is what the first draws give. -/
theorem Streaming.prefix_bodies (h : Streaming spec g b p q) {n : Nat}
    (hn : spec.messages.toNat ≤ n) :
    b.inserted.filterMap Message.body? <+:
      (numbered 0 spec.id (draws n g)).map Payload.ofArticle := by
  have hwritten := congrArg (List.filterMap Message.body?) h.inserting.written
  rw [List.filterMap_append, Producer.bodies_written] at hwritten
  have hfirst : b.inserted.filterMap Message.body? <+:
      (numbered 0 spec.id (draws (spec.messages.toNat - p.remaining) g)).map Payload.ofArticle :=
    ⟨_, hwritten⟩
  exact hfirst.trans ((prefix_numbered 0 spec.id g (by omega)).map _)

omit [CategorySource ρ] [Payload α] in
theorem work_producing (hempty : q.items = []) :
    (producing spec g q : Bench ρ α).work = 8 * spec.messages.toNat + 21 := by
  have hqueue : Floor.queueWork 6 3 q = 0 := by simp [Floor.queueWork, hempty]
  show (8 * spec.messages.toNat + 5 + 0) + (Floor.queueWork 6 3 q + 0) + (0 + 15) + 0 + 0 + 0 + 1 =
    8 * spec.messages.toNat + 21
  omega

omit [CategorySource ρ] [Payload α] in
theorem phase_of_standing (hp : b.floor.producers = [p])
    (h : b.floor.standing (.producer 0) = .finished) : p.phase = .finished := by
  by_cases hfinished : p.phase = .finished
  · exact hfinished
  · simp [Floor.standing, hp, Producer.isFinished, hfinished] at h

/-- Whatever happens, the bench stands with a producer and its queue. -/
theorem Produces.streaming {ms : List Move} (hrun : Produces sink spec g ms b) :
    (∃ p q, Streaming spec g b p q) ∧ ms.length ≤ 8 * spec.messages.toNat + 21 := by
  obtain ⟨name, queue, hmake, hmoves, hrun⟩ := hrun
  obtain ⟨hempty, hroom⟩ := Queue.make_eq_ok hmake
  have hothers : ∀ m ∈ produceMoves, m ≠ .act .dispatcher := by decide
  have hkeep : ∀ (b : Bench ρ α) m b', m ∈ produceMoves → (∃ p q, Streaming spec g b p q) →
      step? sink b m = some b' → ∃ p q, Streaming spec g b' p q := by
    rintro b m b' hm ⟨p, q, h⟩ hstep
    simp only [produceMoves, List.mem_cons, List.not_mem_nil, or_false] at hm
    rcases hm with rfl | rfl
    · exact h.act hstep
    · exact ⟨p, h.collect hstep⟩
  obtain ⟨hfinal, hbound⟩ :=
    runs_within hothers hkeep hmoves ⟨_, _, Streaming.start hroom hempty⟩ hrun
  rw [work_producing hempty] at hbound
  exact ⟨hfinal, by omega⟩

/-- A producer of any number of articles, whatever it draws, with a reader that empties its queue
meanwhile.  The number of steps has a bound, until the producer has finished something can happen,
and no counter overflows.  In the end the queue has got the articles of the draws and one end mark
after them, and the report counts these articles.  With more articles to write, and a queue of any
other size, a producer of the same number that makes the same draws begins with the same
articles. -/
theorem streams_draws {ms : List Move} (hrun : Produces sink spec g ms b) :
    ∃ p, b.floor.producers = [p] ∧
      ms.length ≤ 8 * spec.messages.toNat + 21 ∧
      (p.phase ≠ .finished → ∃ m ∈ produceMoves, ∃ b', step? sink b m = some b') ∧
      p.emitted.total = .ok p.emitted.sum ∧
      (0 < p.remaining → ∀ c, p.emitted.increase c 1 = .ok (p.emitted.bump c)) ∧
      (p.phase = .finished → Streamed spec g b p) ∧
      ∀ (spec' : ProducerSpec) (ms' : List Move) (b' : Bench ρ α), spec'.id = spec.id →
        spec.messages ≤ spec'.messages → Produces sink spec' g ms' b' →
          b'.floor.standing (.producer 0) = .finished →
            b.inserted.filterMap Message.body? <+: b'.inserted.filterMap Message.body? ∧
            (p.phase = .finished → spec'.messages = spec.messages → b'.inserted = b.inserted) := by
  obtain ⟨⟨p, q, h⟩, hbound⟩ := hrun.streaming
  refine ⟨p, h.producers, hbound, h.progress sink, h.total, fun hmore c => ?_, h.streamed, ?_⟩
  · have hlimit := h.sum_add_remaining.2
    exact Tally.increase_one (by omega) c
  intro spec' ms' b' hid hle hrun' hstanding
  obtain ⟨⟨p', q', h'⟩, -⟩ := hrun'.streaming
  have hphase' : p'.phase = .finished := phase_of_standing h'.producers hstanding
  have hinserted' := (h'.streamed hphase').inserted
  refine ⟨?_, fun hphase hmessages => ?_⟩
  · rw [hinserted', List.filterMap_append, bodies_articleMessages, hid]
    exact (h.prefix_bodies (UInt64.le_iff_toNat_le.1 hle)).trans (List.prefix_append _ _)
  · rw [hinserted', (h.streamed hphase).inserted, hid, hmessages]

/-- Three articles through a queue with room for one. -/
theorem streams_draws_three :
    ∃ (ms : List Move) (b : Bench Generator String),
      Produces (fun _ => .accept) ⟨3, 3, 1⟩ (Generator.ofSeed 7) ms b ∧
        b.floor.standing (.producer 0) = .finished ∧
        b.inserted = [.item "producer 3 SPORTS 0", .item "producer 3 SPORTS 1",
          .item "producer 3 WEATHER 0", .done] := by
  let queue : Queue (Message String) := { name := "", capacity := 1 }
  let turn : List Move := [.act (.producer 0), .act (.producer 0), .collect (.source 0)]
  let ms : List Move := turn ++ turn ++ turn ++ turn
  have hfinishes : (Schedule.run? (step? fun _ => .accept)
      (producing ⟨3, 3, 1⟩ (Generator.ofSeed 7) queue : Bench Generator String) ms).map
        (fun b => b.floor.standing (.producer 0)) = some .finished := by decide +kernel
  obtain ⟨b, hrun, hstanding⟩ := Option.map_eq_some_iff.1 hfinishes
  have hproduces : Produces (fun _ => .accept) ⟨3, 3, 1⟩ (Generator.ofSeed 7) ms b :=
    ⟨"", queue, rfl, by decide, hrun⟩
  obtain ⟨p, hp, -, -, -, -, hstreamed, -⟩ := streams_draws hproduces
  refine ⟨ms, b, hproduces, hstanding, ?_⟩
  rw [(hstreamed (phase_of_standing hp hstanding)).inserted]
  decide +kernel

end Bench

end Newsroom

import Newsroom.Proofs.Descriptor.Items

/-!
# Faulty lines of a descriptor

A fault is reported at the first line that no accepted text goes on with.

## Main Definitions

* `Position` — where a scan stands between two lines, and `Position.advance`, how it goes on
* `Position.Walk` — the lines that lead from one position to another
* `Position.completion` — lines that lead from a position to the end of an accepted text
* `coEditorLine` — the line that gives the shared capacity

## Main Statements

* `Position.scan_between` — a scan goes on from line to line
* `Position.Walk.scan_append` — what was found before a position does not depend on what follows
* `Position.scan_cases` — a scan reaches the end, or a first line that it cannot go on with
* `points_at_faults` — what the line of a reported fault says about the text

## Design Notes

A producer that is cut short is the only fault that a longer text can mend, and it is reported
at the last line there is.  That line begins or continues a producer, so the lines before it lead
to a position, as the lines before any other faulty line do.
-/

namespace Newsroom.Descriptor

open Text (Trimmed trim)

variable {n : Nat} {l : Line} {ls as bs : List Line} {items : List Item}

/-- A result that was changed was a result before. -/
theorem exists_of_map_eq_ok {ε α β : Type} {x : Except ε α} {f : α → β} {b : β}
    (h : x.map f = .ok b) : ∃ a, x = .ok a ∧ f a = b := by
  cases x with
  | error e => cases h
  | ok a => exact ⟨a, rfl, Except.ok.inj h⟩

/-- Where a scan stands: between two items, or behind the first or the second line of a
producer. -/
inductive Position where
  | between
  | counting (header : Line) (id : UInt32)
  | sizing (count : Line) (id : UInt32) (messages : UInt64)

namespace Position

variable {p q r : Position}

/-- The position behind a line, and the item that ends there. -/
def advance : Position → Line → Except DescriptorFault (Position × Option Item)
  | between, l =>
      match heading l.text with
      | .note => .ok (between, some (.note l))
      | .coEditor size => size.map fun n => (between, some (.coEditor n))
      | .producer id => id.map fun id => (counting l id, none)
  | counting _ id, c => (messageCount c.text).map fun messages => (sizing c id messages, none)
  | sizing _ id messages, q =>
      (queueSize q.text).map fun size => (between, some (.producer ⟨id, messages, size⟩))

/-- What a text is lacking that ends at a position. -/
def missing? : Position → Option Fault
  | between => none
  | counting header id => some ⟨header.number, .missingCount id⟩
  | sizing count id _ => some ⟨count.number, .missingSize id⟩

/-- The items of the lines behind a position, with what is left open before it. -/
def scan (p : Position) : List Line → Scan
  | [] => ⟨[], p.missing?⟩
  | l :: ls =>
      match p.advance l with
      | .error f => .stop l f
      | .ok (q, item?) =>
          let s := q.scan ls
          { s with items := item?.toList ++ s.items }

/-- The lines that lead from a position to another, with the items that end on them. -/
inductive Walk : Position → List Line → List Item → Position → Prop
  | nil (p : Position) : Walk p [] [] p
  | cons {p q r : Position} {l : Line} {ls : List Line} {item? : Option Item} {items : List Item}
      (hstep : p.advance l = .ok (q, item?)) (hrest : Walk q ls items r) :
      Walk p (l :: ls) (item?.toList ++ items) r

/-! ### Walks -/

theorem scan_cons_ok {item? : Option Item} (h : p.advance l = .ok (q, item?)) (ls : List Line) :
    p.scan (l :: ls) = ⟨item?.toList ++ (q.scan ls).items, (q.scan ls).fault?⟩ := by
  rw [scan, h]

theorem scan_cons_error {f : DescriptorFault} (h : p.advance l = .error f) (ls : List Line) :
    p.scan (l :: ls) = ⟨[], some ⟨l.number, f⟩⟩ := by
  rw [scan, h]
  rfl

/-- A scan goes on from line to line. -/
theorem scan_between (ls : List Line) : Descriptor.scan ls = between.scan ls := by
  -- the lines of a producer, which are taken together there, are three steps here
  fun_induction Descriptor.scan ls with
  | case1 => rfl
  | case2 l ls hheading ih => simp [scan, advance, hheading, Scan.cons, ih]
  | case3 l ls f hheading => simp [scan, advance, hheading, Except.map]
  | case4 l ls n hheading ih => simp [scan, advance, hheading, Except.map, Scan.cons, ih]
  | case5 l ls f hheading => simp [scan, advance, hheading, Except.map]
  | case6 l id hheading => simp [scan, advance, hheading, Except.map, missing?, Scan.stop]
  | case7 l id hheading c ls f hcount =>
      simp [scan, advance, hheading, Except.map, hcount, Scan.stop]
  | case8 l id hheading c messages hcount =>
      simp [scan, advance, hheading, Except.map, hcount, missing?, Scan.stop]
  | case9 l id hheading c messages hcount q ls f hsize =>
      simp [scan, advance, hheading, Except.map, hcount, hsize, Scan.stop]
  | case10 l id hheading c messages hcount q ls size hsize ih =>
      simp [scan, advance, hheading, Except.map, hcount, hsize, Scan.cons, ih]

/-- What was found before a position does not depend on what follows. -/
theorem Walk.scan_append (h : Walk p as items q) (bs : List Line) :
    p.scan (as ++ bs) = ⟨items ++ (q.scan bs).items, (q.scan bs).fault?⟩ := by
  induction h with
  | nil => rfl
  | cons hstep hrest ih => rw [List.cons_append, scan_cons_ok hstep, ih, List.append_assoc]

/-- The scan of a walk finds its items, and lacks what is left open at its end. -/
theorem Walk.scan_eq (h : Walk p ls items q) : p.scan ls = ⟨items, q.missing?⟩ := by
  have hscan := h.scan_append []
  rwa [scan, List.append_nil, List.append_nil] at hscan

/-- A scan reaches the end, or a first line that it cannot go on with. -/
theorem scan_cases (p : Position) (ls : List Line) :
    (∃ items q, Walk p ls items q) ∨
      ∃ before l after items q f, ls = before ++ l :: after ∧ Walk p before items q ∧
        q.advance l = .error f := by
  induction ls generalizing p with
  | nil => exact .inl ⟨[], p, .nil p⟩
  | cons l ls ih =>
      cases hstep : p.advance l with
      | error f => exact .inr ⟨[], l, ls, [], p, f, rfl, .nil p, hstep⟩
      | ok next =>
          obtain ⟨q, item?⟩ := next
          rcases ih q with ⟨items, r, hwalk⟩ | ⟨before, l', after, items, r, f, rfl, hwalk, hfault⟩
          · exact .inl ⟨_, r, .cons hstep hwalk⟩
          · exact .inr ⟨l :: before, l', after, _, r, f, rfl, .cons hstep hwalk, hfault⟩

/-- The lines before the end of a walk are a walk. -/
theorem Walk.exists_of_append (h : Walk p (as ++ bs) items r) :
    ∃ items' q, Walk p as items' q := by
  induction as generalizing p items with
  | nil => exact ⟨[], p, .nil p⟩
  | cons a as ih =>
      cases h with
      | cons hstep hrest =>
          obtain ⟨items', q, hwalk⟩ := ih hrest
          exact ⟨_, q, .cons hstep hwalk⟩

/-- What is lacking behind a line is reported there. -/
theorem line_of_advance {item? : Option Item} {fault : Fault} (h : p.advance l = .ok (q, item?))
    (hmissing : q.missing? = some fault) : fault.line = l.number := by
  cases p with
  | between =>
      dsimp only [advance] at h
      split at h
      · cases h
        cases hmissing
      · obtain ⟨size, -, hnext⟩ := exists_of_map_eq_ok h
        cases hnext
        cases hmissing
      · obtain ⟨id, -, hnext⟩ := exists_of_map_eq_ok h
        cases hnext
        cases hmissing
        rfl
  | counting header id =>
      obtain ⟨messages, -, hnext⟩ := exists_of_map_eq_ok h
      cases hnext
      cases hmissing
      rfl
  | sizing count id messages =>
      obtain ⟨size, -, hnext⟩ := exists_of_map_eq_ok h
      cases hnext
      cases hmissing

/-- A walk that leaves something open ends with the line at which the lack is reported. -/
theorem Walk.last_of_missing {fault : Fault} (h : Walk p ls items q)
    (hmissing : q.missing? = some fault) :
    ls = [] ∧ p = q ∨ ∃ before l, ls = before ++ [l] ∧ fault.line = l.number := by
  induction h with
  | nil => exact .inl ⟨rfl, rfl⟩
  | @cons p q r l ls item? items hstep hrest ih =>
      right
      rcases ih hmissing with ⟨rfl, rfl⟩ | ⟨before, l', rfl, hline⟩
      · exact ⟨[], l, rfl, line_of_advance hstep hmissing⟩
      · exact ⟨l :: before, l', rfl, hline⟩

/-- What is lacking is a number of articles or a capacity. -/
theorem message_of_missing {fault : Fault} (h : p.missing? = some fault) :
    ∃ id : UInt32, fault.fault.message = s!"missing message count for producer {id}" ∨
      fault.fault.message = s!"missing queue size for producer {id}" := by
  cases p with
  | between => cases h
  | counting header id =>
      cases h
      exact ⟨id, .inl rfl⟩
  | sizing count id messages =>
      cases h
      exact ⟨id, .inr rfl⟩

end Position

/-! ### Completions -/

/-- The line that gives the shared capacity. -/
def coEditorLine (size : UInt64) : List Char :=
  "Co-Editor queue size = ".toList ++ Text.decimal size.toNat

theorem coEditorLine_eq (size : UInt64) :
    coEditorLine size = assignment coEditorTag [' '] [' '] size.toNat := rfl

theorem said_coEditorLine (size : UInt64) : Said (coEditorLine size) := by
  rw [coEditorLine_eq]
  exact said_assignment said_coEditorTag (by decide) (by decide) size.toNat

theorem spelled_coEditorLine (n : Nat) (size : UInt64) :
    Item.Spelled (.coEditor size) [⟨n, coEditorLine size⟩] := by
  rw [coEditorLine_eq]
  exact spelled_coEditor (by decide) (by decide) n size

namespace Position

/-- Lines that lead from a position to the end of an accepted text. -/
def completion : Position → List (List Char)
  | between => [coEditorLine 0]
  | counting _ _ => ["0".toList, "queue size = 0".toList, coEditorLine 0]
  | sizing _ _ _ => ["queue size = 0".toList, coEditorLine 0]

theorem newline_not_mem_completion (p : Position) : ∀ raw ∈ p.completion, '\n' ∉ raw := by
  have hlast := (said_coEditorLine 0).inLine
  cases p <;> simp [completion, hlast]

/-- The lines that complete a position give a producer that was begun no articles and no
capacity, and a shared capacity. -/
theorem scan_completion (p : Position) (n : Nat) :
    ∃ items, p.scan (contentFrom n p.completion) = ⟨items, none⟩ ∧ .coEditor 0 ∈ items := by
  cases p with
  | between => exact ⟨[.coEditor 0], rfl, by simp⟩
  | counting header id => exact ⟨[.producer ⟨id, 0, 0⟩, .coEditor 0], rfl, by simp⟩
  | sizing count id messages => exact ⟨[.producer ⟨id, messages, 0⟩, .coEditor 0], rfl, by simp⟩

end Position

/-- Lines behind a walk that complete its position make a text that is accepted. -/
theorem accepted_of_walk {other : String} {raws : List (List Char)} {p : Position}
    (hwalk : Position.Walk .between (contentFrom 1 raws) items p)
    (hlines : Text.lines other.toList = raws ++ p.completion) : Accepted other := by
  obtain ⟨items', hscan, hsize⟩ := p.scan_completion (1 + raws.length)
  have hall : scan (contentLines other.toList) = ⟨items ++ items', none⟩ := by
    rw [contentLines, hlines, contentFrom_append, Position.scan_between, hwalk.scan_append, hscan]
  exact accepted_of_scan hall ⟨0, List.mem_append_right items hsize⟩

/-- Behind a text that leads to a position, lines can be written with which it is accepted. -/
theorem exists_accepted_of_walk (cs : List Char) {raws : List (List Char)} {p : Position}
    (hwalk : Position.Walk .between (contentFrom 1 (Text.lines cs ++ raws)) items p)
    (hraws : ∀ raw ∈ raws, '\n' ∉ raw) :
    ∃ other : String, cs <+: other.toList ∧ Text.lines cs ++ raws <+: Text.lines other.toList ∧
      Accepted other := by
  have hnewline : ∀ raw ∈ raws ++ p.completion, '\n' ∉ raw :=
    List.forall_mem_append.2 ⟨hraws, p.newline_not_mem_completion⟩
  obtain ⟨cs', hprefix, hlines⟩ := Text.exists_lines_eq_append cs hnewline
  rw [← String.toList_ofList (l := cs'), ← List.append_assoc] at hlines
  refine ⟨String.ofList cs', by rwa [String.toList_ofList], ?_, accepted_of_walk hwalk hlines⟩
  rw [hlines]
  exact List.prefix_append _ _

/-! ### Reported faults -/

/-- A fault is reported at a line that leads on from no position, or at the last one if something
is left open there. -/
theorem exists_of_fault {fault : DescriptorFault} (h : (scan ls).fault? = some ⟨n, fault⟩) :
    ∃ before l after items q, ls = before ++ l :: after ∧ l.number = n ∧
      Position.Walk .between before items q ∧
      (q.advance l = .error fault ∨ after = [] ∧
        ∃ items' q', Position.Walk .between ls items' q' ∧ q'.missing? = some ⟨n, fault⟩) := by
  rw [Position.scan_between] at h
  rcases Position.scan_cases .between ls with ⟨items, q, hwalk⟩ |
    ⟨before, l, after, items, q, f, rfl, hwalk, hfault⟩
  · rw [hwalk.scan_eq] at h
    have hmissing : q.missing? = some ⟨n, fault⟩ := h
    rcases hwalk.last_of_missing hmissing with ⟨rfl, rfl⟩ | ⟨before, l, rfl, hline⟩
    · cases hmissing
    · obtain ⟨items', q', hbefore⟩ := hwalk.exists_of_append
      exact ⟨before, l, [], items', q', rfl, hline.symm, hbefore,
        .inr ⟨rfl, items, q, hwalk, hmissing⟩⟩
  · rw [hwalk.scan_append, Position.scan_cons_error hfault] at h
    cases h
    exact ⟨before, l, after, items, q, rfl, rfl, hwalk, .inl hfault⟩

theorem fault_of_parse {text : String} {fault : DescriptorFault}
    (h : (read text).value = .error (.parse n fault)) :
    (scan (contentLines text.toList)).fault? = some ⟨n, fault⟩ := by
  dsimp only [read, Scan.outcome] at h
  split at h
  · next line fault' heq =>
    cases h
    exact heq
  · split at h <;> cases h

theorem fault_of_config {text : String} {fault : ConfigFault}
    (h : (read text).value = .error (.config fault)) :
    (scan (contentLines text.toList)).fault? = none := by
  dsimp only [read, Scan.outcome] at h
  split at h
  · cases h
  · assumption

/-- A line that leads on from no position ends a scan, whatever follows. -/
theorem scan_of_advance_error {raws rest : List (List Char)} {raw : List Char} {q : Position}
    {fault : DescriptorFault} (hwalk : Position.Walk .between (contentFrom 1 raws) items q)
    (hraw : trim raw ≠ []) (hfault : q.advance ⟨1 + raws.length, trim raw⟩ = .error fault) :
    scan (contentFrom 1 (raws ++ raw :: rest)) = ⟨items, some ⟨1 + raws.length, fault⟩⟩ := by
  rw [contentFrom_append, contentFrom_cons, contentAt, if_neg hraw, Position.scan_between,
    hwalk.scan_append, List.singleton_append, Position.scan_cons_error hfault, List.append_nil]

/-- Where the line of a reported fault stands in the text. -/
theorem exists_of_parse {text : String} {fault : DescriptorFault}
    (h : (read text).value = .error (.parse n fault)) :
    ∃ raws raw rest items q, Text.lines text.toList = raws ++ raw :: rest ∧ n = 1 + raws.length ∧
      trim raw ≠ [] ∧ Position.Walk .between (contentFrom 1 raws) items q ∧
      (q.advance ⟨1 + raws.length, trim raw⟩ = .error fault ∨ (∀ raw' ∈ rest, trim raw' = []) ∧
        ∃ items' q', Position.Walk .between (contentLines text.toList) items' q' ∧
          q'.missing? = some ⟨n, fault⟩) := by
  obtain ⟨before, l, after, items, q, hcontent, hn, hwalk, hend⟩ :=
    exists_of_fault (fault_of_parse h)
  obtain ⟨raws, raw, rest, hlines, rfl, rfl, hraw, rfl⟩ := exists_of_contentFrom_eq hcontent
  refine ⟨raws, raw, rest, items, q, hlines, hn.symm, hraw, hwalk, ?_⟩
  rwa [contentFrom_eq_nil_iff] at hend

/-- A text that is the same up to a line that leads on from no position is read alike. -/
theorem read_eq_of_advance_error {text other : String} {raws rest : List (List Char)}
    {raw : List Char} {q : Position} {fault : DescriptorFault}
    (hlines : Text.lines text.toList = raws ++ raw :: rest)
    (hwalk : Position.Walk .between (contentFrom 1 raws) items q) (hraw : trim raw ≠ [])
    (hfault : q.advance ⟨1 + raws.length, trim raw⟩ = .error fault)
    (hother : (Text.lines other.toList).take (1 + raws.length) =
      (Text.lines text.toList).take (1 + raws.length)) : read other = read text := by
  have hthrough : (Text.lines text.toList).take (1 + raws.length) = raws ++ [raw] := by
    rw [hlines, Nat.add_comm, List.append_cons]
    exact List.take_left' (by simp)
  have hsplit := List.take_append_drop (1 + raws.length) (Text.lines other.toList)
  rw [hother, hthrough, List.append_assoc, List.singleton_append] at hsplit
  unfold read contentLines
  rw [← hsplit, hlines, scan_of_advance_error hwalk hraw hfault,
    scan_of_advance_error hwalk hraw hfault]

/-- A scan without a fault leaves nothing open. -/
theorem exists_walk_of_scan (h : (scan ls).fault? = none) :
    ∃ items, Position.Walk .between ls items .between := by
  rw [Position.scan_between] at h
  rcases Position.scan_cases .between ls with ⟨items, q, hwalk⟩ |
    ⟨before, l, after, items, q, f, rfl, hwalk, hfault⟩
  · rw [hwalk.scan_eq] at h
    cases q with
    | between => exact ⟨items, hwalk⟩
    | counting header id => cases h
    | sizing count id messages => cases h
  · rw [hwalk.scan_append, Position.scan_cons_error hfault] at h
    cases h

/-- A text without a fault is completed by a line that gives the shared capacity. -/
theorem read_of_coEditorLine {text other : String} {size : UInt64}
    (hfault : (scan (contentLines text.toList)).fault? = none)
    (hlines : (Text.lines other.toList).map trim =
      (Text.lines text.toList).map trim ++ [coEditorLine size]) :
    ∃ c, (read other).value = .ok c ∧ c.coEditorQueueSize = size := by
  obtain ⟨items, hwalk⟩ := exists_walk_of_scan hfault
  have hsaid := said_coEditorLine size
  have htrim := Text.trim_eq_self hsaid.trimmed
  have hsame : (Text.lines other.toList).map trim =
      (Text.lines text.toList ++ [coEditorLine size]).map trim := by
    rw [hlines, List.map_append, List.map_singleton, htrim]
  have hcontent : contentLines other.toList = contentLines text.toList ++
      ([⟨1 + (Text.lines text.toList).length, coEditorLine size⟩] ++ []) := by
    unfold contentLines
    rw [contentFrom_congr hsame, contentFrom_append, contentFrom_cons, contentAt, htrim,
      if_neg hsaid.ne_nil]
    rfl
  have hscan : scan (contentLines other.toList) = ⟨items ++ .coEditor size :: [], none⟩ := by
    rw [hcontent, Position.scan_between, hwalk.scan_append, ← Position.scan_between,
      scan_append (spelled_coEditorLine _ size) (by simpa using hsaid.trimmed)]
    rfl
  exact ⟨_, congrArg Logged.value (read_eq_ok hscan (config?_eq_some rfl (by simp))), rfl⟩

/-- What the line of a reported fault says about the text, and how a text without a shared
capacity is completed.

The line is there and says something, and the lines before it can be completed to a text that is
accepted.  Either nothing behind the line makes a difference, or the line is the last one that
says something and begins or continues a producer, and then the text itself can be completed.  A
text that is only lacking a shared capacity is completed by any line that gives one. -/
theorem points_at_faults (text : String) :
    (∀ n fault, (read text).value = .error (.parse n fault) →
      (∃ i raw, n = i + 1 ∧ (Text.lines text.toList)[i]? = some raw ∧ trim raw ≠ []) ∧
      (∃ other : String, (Text.lines text.toList).take (n - 1) <+: Text.lines other.toList ∧
        Accepted other) ∧
      ((∀ other : String,
          (Text.lines other.toList).take n = (Text.lines text.toList).take n →
          read other = read text) ∨
        (∀ i raw, n ≤ i → (Text.lines text.toList)[i]? = some raw → trim raw = []) ∧
        (∃ id : UInt32, fault.message = s!"missing message count for producer {id}" ∨
          fault.message = s!"missing queue size for producer {id}") ∧
        ∃ other : String, text.toList <+: other.toList ∧
          Text.lines text.toList <+: Text.lines other.toList ∧ Accepted other)) ∧
    (∀ fault, (read text).value = .error (.config fault) → ∀ size : UInt64,
      (∀ other : String,
        (Text.lines other.toList).map trim =
          (Text.lines text.toList).map trim ++ [coEditorLine size] →
        ∃ c, (read other).value = .ok c ∧ c.coEditorQueueSize = size) ∧
      ∃ other : String, text.toList <+: other.toList ∧
        Text.lines other.toList = Text.lines text.toList ++ [coEditorLine size]) := by
  refine ⟨fun n fault hparse => ?_, fun fault hconfig size => ⟨fun other hlines => ?_, ?_⟩⟩
  · obtain ⟨raws, raw, rest, items, q, hlines, rfl, hraw, hwalk, hend⟩ := exists_of_parse hparse
    refine ⟨⟨raws.length, raw, Nat.add_comm 1 raws.length, by simp [hlines], hraw⟩, ?_, ?_⟩
    · -- the lines before the reported one lead to a position
      have hraws : ∀ raw' ∈ raws, '\n' ∉ raw' := by
        intro raw' hmem
        have hline : raw' ∈ Text.lines text.toList := by
          rw [hlines]
          exact List.mem_append_left _ hmem
        exact Text.newline_not_mem_of_mem_lines hline
      obtain ⟨other, -, hprefix, haccepted⟩ := exists_accepted_of_walk [] hwalk hraws
      rw [Nat.add_sub_cancel_left, hlines, List.take_left]
      exact ⟨other, hprefix, haccepted⟩
    · rcases hend with hfault | ⟨hrest, items', q', hall, hmissing⟩
      · left
        intro other hother
        exact read_eq_of_advance_error hlines hwalk hraw hfault hother
      · right
        refine ⟨fun i raw' hi hraw' => ?_, Position.message_of_missing hmissing, ?_⟩
        · rw [hlines, List.append_cons, List.getElem?_append_right (by simp; omega)] at hraw'
          exact hrest raw' (List.mem_of_getElem? hraw')
        · unfold contentLines at hall
          rw [← List.append_nil (Text.lines text.toList)] at hall ⊢
          exact exists_accepted_of_walk text.toList hall (by simp)
  · exact read_of_coEditorLine (fault_of_config hconfig) hlines
  · have hnewline : ∀ raw ∈ [coEditorLine size], '\n' ∉ raw := by
      simpa using (said_coEditorLine size).inLine
    obtain ⟨cs, hprefix, hlines⟩ := Text.exists_lines_eq_append text.toList hnewline
    exact ⟨String.ofList cs, by rwa [String.toList_ofList], by rwa [String.toList_ofList]⟩

/-- A text that goes wrong behind the first line of a producer, and one that is only lacking a
shared capacity. -/
theorem points_at_faults_counted :
    (∃ other : String, ["PRODUCER 1".toList] <+: Text.lines other.toList ∧ Accepted other) ∧
    ∃ c, (read "# desk\nCo-Editor queue size = 3").value = .ok c ∧ c.coEditorQueueSize = 3 := by
  constructor
  · have hscan : scan (contentLines "PRODUCER 1\nx".toList) = ⟨[], some ⟨2, .count "x"⟩⟩ := by
      decide +kernel
    have hparse : (read "PRODUCER 1\nx").value = .error (.parse 2 (.count "x")) := by
      unfold read
      rw [hscan]
      rfl
    exact ((points_at_faults "PRODUCER 1\nx").1 2 (.count "x") hparse).2.1
  · have hscan : scan (contentLines "# desk".toList) = ⟨[.note ⟨1, "# desk".toList⟩], none⟩ := by
      decide +kernel
    have hconfig : (read "# desk").value = .error (.config .missingCoEditor) := by
      unfold read
      rw [hscan]
      rfl
    exact ((points_at_faults "# desk").2 .missingCoEditor hconfig 3).1 _ (by decide +kernel)

end Newsroom.Descriptor

import Newsroom.Proofs.Descriptor.Parts

/-!
# Items of a descriptor

A descriptor is read exactly if its lines fall into items, and then every line is accounted
for.

## Main Definitions

* `Item.Spelled` — the lines that an item stands on
* `Splits` — lines that fall into items
* `Accepted` — a text that is read without an error

## Main Statements

* `scan_append` — an item at the beginning is scanned, whatever follows
* `Splits.scan_eq`, `exists_splits` — a scan finds no fault exactly if the lines fall into items
* `Splits.unique` — they do so in one way only
* `reads_items` — which descriptors are accepted, and what is made of each of their lines

## Design Notes

What stands on a line depends on the lines before it: the line of a queue size may also look
like that of the shared capacity.  The split is unique all the same, since the first line of an
item tells how many lines it takes.
-/

namespace Newsroom.Descriptor

open Text (AllBlank Numeral Trimmed trim)

variable {text : List Char} {ls group : List Line} {item : Item} {items : List Item}
variable {split split' : List (Item × List Line)}

/-- The lines that an item stands on. -/
inductive Item.Spelled : Item → List Line → Prop
  /-- The number of a producer, how many articles it writes, and the capacity of its queue. -/
  | producer {spec : ProducerSpec} {l c q : Line} (hid : Names l.text spec.id.toNat)
      (hcount : Numeral spec.messages.toNat c.text) (hmention : sizeTag <:+: q.text)
      (hsize : Assigns q.text spec.queueSize.toNat) : Spelled (.producer spec) [l, c, q]
  /-- The shared capacity. -/
  | coEditor {size : UInt64} {l : Line} (htag : coEditorTag <+: l.text)
      (hsize : Assigns l.text size.toNat) : Spelled (.coEditor size) [l]
  /-- A line that begins as neither of these does. -/
  | note {l : Line} (hproducer : ¬ producerTag <+: l.text) (hcoEditor : ¬ coEditorTag <+: l.text) :
      Spelled (.note l) [l]

/-- Lines that fall into items, each with its own lines. -/
inductive Splits : List Line → List (Item × List Line) → Prop
  | nil : Splits [] []
  | cons {item : Item} {group ls : List Line} {split : List (Item × List Line)}
      (hitem : item.Spelled group) (hrest : Splits ls split) :
      Splits (group ++ ls) ((item, group) :: split)

/-- The line of a note. -/
def Item.note? : Item → Option Line
  | note line => some line
  | _ => none

/-- A text that is read without an error. -/
def Accepted (text : String) : Prop :=
  ∃ c, (read text).value = .ok c

/-! ### The first line of an item -/

theorem heading_eq_producer_iff {id : Except DescriptorFault UInt32} :
    heading text = .producer id ↔ producerTag <+: text ∧ producerId text = id := by
  rw [heading, ← List.isPrefixOf_iff_prefix]
  split
  · next htag => simp [htag]
  · next htag =>
    split <;> simp [htag]

/-- No line begins as two kinds of items do. -/
theorem not_producer_of_coEditor (h : coEditorTag <+: text) : ¬ producerTag <+: text := by
  rintro ⟨rest, rfl⟩
  obtain ⟨rest', heq⟩ := h
  cases (List.cons.inj heq).1

theorem heading_eq_coEditor_iff {size : Except DescriptorFault UInt64} :
    heading text = .coEditor size ↔ coEditorTag <+: text ∧ coEditorSize text = size := by
  constructor
  · intro h
    unfold heading at h
    split at h
    · cases h
    · split at h
      · next htag => exact ⟨List.isPrefixOf_iff_prefix.1 htag, Heading.coEditor.inj h⟩
      · cases h
  · rintro ⟨htag, rfl⟩
    have hother := mt List.isPrefixOf_iff_prefix.1 (not_producer_of_coEditor htag)
    rw [heading, if_neg hother, if_pos (List.isPrefixOf_iff_prefix.2 htag)]

theorem heading_eq_note_iff :
    heading text = .note ↔ ¬ producerTag <+: text ∧ ¬ coEditorTag <+: text := by
  rw [heading, ← List.isPrefixOf_iff_prefix, ← List.isPrefixOf_iff_prefix]
  split
  · next htag => simp [htag]
  · next htag =>
    split
    · next htag' => simp [htag']
    · next htag' => simp [htag, htag']

theorem Names.begins {id : Nat} (h : Names text id) : producerTag <+: text := by
  obtain ⟨gap, numeral, -, -, -, rfl⟩ := h
  exact ⟨gap ++ numeral, by rw [List.append_assoc]⟩

/-- A line that gives the shared capacity is an item of its own. -/
theorem spelled_coEditor {a b : List Char} (ha : AllBlank a) (hb : AllBlank b) (n : Nat)
    (size : UInt64) :
    Item.Spelled (.coEditor size) [⟨n, assignment coEditorTag a b size.toNat⟩] :=
  .coEditor (key_prefix_assignment coEditorTag a b size.toNat)
    (assigns_assignment (by decide) ha hb size.toNat)

/-! ### Scans -/

/-- An item at the beginning is scanned, whatever follows. -/
theorem scan_append (hitem : item.Spelled group) (htrim : ∀ l ∈ group, Trimmed l.text)
    (ls : List Line) : scan (group ++ ls) = (scan ls).cons item := by
  cases hitem with
  | @producer spec l c q hid hcount hmention hsize =>
      have hl : producerId l.text = .ok spec.id :=
        (producerId_eq_ok_iff (htrim l List.mem_cons_self)).2 hid
      have hheading := heading_eq_producer_iff.2 ⟨hid.begins, hl⟩
      have hc : messageCount c.text = .ok spec.messages := messageCount_eq_ok_iff.2 hcount
      have hq : queueSize q.text = .ok spec.queueSize := queueSize_eq_ok_iff.2 ⟨hmention, hsize⟩
      simp [scan, hheading, hc, hq]
  | @coEditor size l htag hsize =>
      have hl : coEditorSize l.text = .ok size := coEditorSize_eq_ok_iff.2 hsize
      have hheading := heading_eq_coEditor_iff.2 ⟨htag, hl⟩
      simp [scan, hheading]
  | @note l hproducer hcoEditor =>
      have hheading := heading_eq_note_iff.2 ⟨hproducer, hcoEditor⟩
      simp [scan, hheading]

/-- Lines that fall into items are scanned without a fault. -/
theorem Splits.scan_eq (h : Splits ls split) (htrim : ∀ l ∈ ls, Trimmed l.text) :
    scan ls = ⟨split.map Prod.fst, none⟩ := by
  induction h with
  | nil => rfl
  | @cons item group ls split hitem hrest ih =>
      obtain ⟨hgroup, hls⟩ := List.forall_mem_append.1 htrim
      rw [scan_append hitem hgroup, ih hls]
      rfl

/-- Lines that are scanned without a fault fall into the items that were found. -/
theorem exists_splits (htrim : ∀ l ∈ ls, Trimmed l.text) (hscan : (scan ls).fault? = none) :
    ∃ split, Splits ls split ∧ split.map Prod.fst = (scan ls).items := by
  have hcons : ∀ {item group ls}, Item.Spelled item group →
      (∃ split, Splits ls split ∧ split.map Prod.fst = (scan ls).items) →
      ∃ split, Splits (group ++ ls) split ∧ split.map Prod.fst = item :: (scan ls).items := by
    rintro item group ls hitem ⟨split, hsplit, hitems⟩
    exact ⟨(item, group) :: split, .cons hitem hsplit, congrArg (item :: ·) hitems⟩
  -- only the scans that go on to the end have no fault
  fun_induction scan ls with
  | case1 => exact ⟨[], .nil, rfl⟩
  | case2 l ls hheading ih =>
      obtain ⟨hproducer, hcoEditor⟩ := heading_eq_note_iff.1 hheading
      exact hcons (.note hproducer hcoEditor) (ih (List.forall_mem_cons.1 htrim).2 hscan)
  | case4 l ls size hheading ih =>
      obtain ⟨htag, hsize⟩ := heading_eq_coEditor_iff.1 hheading
      exact hcons (.coEditor htag (coEditorSize_eq_ok_iff.1 hsize))
        (ih (List.forall_mem_cons.1 htrim).2 hscan)
  | case10 l id hheading c messages hcount q ls size hsize ih =>
      obtain ⟨hl, htrim⟩ := List.forall_mem_cons.1 htrim
      obtain ⟨-, hid⟩ := heading_eq_producer_iff.1 hheading
      obtain ⟨hmention, hassigns⟩ := queueSize_eq_ok_iff.1 hsize
      have hrest : ∀ l ∈ ls, Trimmed l.text :=
        (List.forall_mem_cons.1 (List.forall_mem_cons.1 htrim).2).2
      exact hcons (.producer ((producerId_eq_ok_iff hl).1 hid) (messageCount_eq_ok_iff.1 hcount)
        hmention hassigns) (ih hrest hscan)
  | case3 | case5 | case6 | case7 | case8 | case9 => cases hscan

/-- How many lines an item takes. -/
theorem Item.Spelled.length_eq {group' : List Line} (h : item.Spelled group)
    (h' : item.Spelled group') : group.length = group'.length := by
  cases h <;> cases h' <;> rfl

/-- Two splits into the same items are the same. -/
theorem Splits.eq_of_items_eq (h : Splits ls split) (h' : Splits ls split')
    (hitems : split.map Prod.fst = split'.map Prod.fst) : split = split' := by
  induction h generalizing split' with
  | nil =>
      cases split' with
      | nil => rfl
      | cons entry split' => cases hitems
  | @cons item group ls split hitem hrest ih =>
      generalize hlines : group ++ ls = lines at h'
      cases h' with
      | nil => cases hitems
      | @cons item' group' ls' split' hitem' hrest' =>
          rw [List.map_cons, List.map_cons] at hitems
          obtain ⟨hsame, hmore⟩ := List.cons.inj hitems
          obtain rfl : item = item' := hsame
          obtain ⟨rfl, rfl⟩ := List.append_inj hlines (hitem.length_eq hitem')
          rw [ih hrest' hmore]

/-- Lines fall into items in one way only. -/
theorem Splits.unique (h : Splits ls split) (h' : Splits ls split')
    (htrim : ∀ l ∈ ls, Trimmed l.text) : split = split' := by
  refine h.eq_of_items_eq h' ?_
  have hscan := (h.scan_eq htrim).symm.trans (h'.scan_eq htrim)
  exact congrArg Scan.items hscan

/-! ### The configuration of items -/

/-- Items with a shared capacity have a last one. -/
theorem exists_last_coEditor (h : ∃ size, .coEditor size ∈ items) :
    ∃ before size after, items = before ++ .coEditor size :: after ∧
      ∀ n, .coEditor n ∉ after := by
  induction items with
  | nil =>
      obtain ⟨size, hsize⟩ := h
      cases hsize
  | cons item items ih =>
      by_cases hlater : ∃ size, .coEditor size ∈ items
      · obtain ⟨before, size, after, rfl, hafter⟩ := ih hlater
        exact ⟨item :: before, size, after, rfl, hafter⟩
      · obtain ⟨size, hsize⟩ := h
        rcases List.mem_cons.1 hsize with rfl | hsize
        · exact ⟨[], size, items, rfl, not_exists.1 hlater⟩
        · exact absurd ⟨size, hsize⟩ hlater

/-- The last shared capacity counts. -/
theorem config?_eq_some {before after : List Item} {size : UInt64}
    (hitems : items = before ++ .coEditor size :: after) (hafter : ∀ n, .coEditor n ∉ after) :
    config? items = some (.ofProducers (items.filterMap Item.producer?) size) := by
  have hnone : after.filterMap Item.coEditor? = [] := by
    refine List.filterMap_eq_nil_iff.2 fun item hitem => ?_
    cases item with
    | coEditor n => exact absurd hitem (hafter n)
    | producer spec => rfl
    | note line => rfl
  have hsizes : items.filterMap Item.coEditor? = before.filterMap Item.coEditor? ++ [size] := by
    rw [hitems, List.filterMap_append, List.filterMap_cons, hnone]
    rfl
  rw [config?, hsizes, List.getLast?_concat]
  rfl

theorem exists_coEditor_of_config? {c : Config} (h : config? items = some c) :
    ∃ size, .coEditor size ∈ items := by
  obtain ⟨size, hlast, -⟩ := Option.map_eq_some_iff.1 h
  obtain ⟨item, hitem, hsize⟩ := List.mem_filterMap.1 (List.mem_of_getLast? hlast)
  cases item with
  | coEditor n => exact ⟨n, hitem⟩
  | producer spec => cases hsize
  | note line => cases hsize

/-- The reports of items are those of their notes. -/
theorem filterMap_event? (items : List Item) :
    items.filterMap Item.event? =
      (items.filterMap Item.note?).map fun l => .ignoredLine l.number (String.ofList l.text) := by
  rw [List.map_filterMap]
  congr
  funext item
  cases item <;> rfl

/-- A scan without a fault gives the configuration of its items, and reports its notes. -/
theorem read_eq_ok {text : String} {c : Config}
    (hscan : scan (contentLines text.toList) = ⟨items, none⟩) (hconfig : config? items = some c) :
    read text =
      ⟨.ok c, (items.filterMap Item.note?).map fun l =>
        .ignoredLine l.number (String.ofList l.text)⟩ := by
  rw [← filterMap_event?]
  simp [read, hscan, Scan.outcome, hconfig]

theorem accepted_of_scan {text : String} (hscan : scan (contentLines text.toList) = ⟨items, none⟩)
    (hsome : ∃ size, .coEditor size ∈ items) : Accepted text := by
  obtain ⟨before, size, after, hitems, hafter⟩ := exists_last_coEditor hsome
  exact ⟨_, congrArg Logged.value (read_eq_ok hscan (config?_eq_some hitems hafter))⟩

theorem trimmed_of_mem_contentLines {cs : List Char} : ∀ l ∈ contentLines cs, Trimmed l.text :=
  fun _ => trimmed_of_mem_contentFrom

/-- A text is accepted exactly if its lines that say something fall into items, one of which
gives the shared capacity.  They fall into items in one way only, and the configuration is made
of these: all producers in turn, the last shared capacity and the default settings, with a
warning for each note.  The lines that say something are those that are not blank, each without
the blanks around it and with its number, in turn. -/
theorem reads_items (text : String) :
    (Accepted text ↔
      ∃ split, Splits (contentLines text.toList) split ∧
        ∃ size, .coEditor size ∈ split.map Prod.fst) ∧
    (∀ split split', Splits (contentLines text.toList) split →
      Splits (contentLines text.toList) split' → split = split') ∧
    (∀ split before size after, Splits (contentLines text.toList) split →
      split.map Prod.fst = before ++ .coEditor size :: after → (∀ n, .coEditor n ∉ after) →
      (read text).value = .ok
        ⟨(split.map Prod.fst).filterMap Item.producer?, size,
          { editDelayMs := 100, seed := none }⟩ ∧
      (read text).events.map (fun e => (e.level, e.message, e.fields)) =
        ((split.map Prod.fst).filterMap Item.note?).map fun l =>
          (.warn, "ignoring unrecognised config line",
            [("line", .number l.number), ("text", .text (String.ofList l.text))])) ∧
    (∀ n t, ⟨n, t⟩ ∈ contentLines text.toList ↔
      t ≠ [] ∧ ∃ i raw, n = i + 1 ∧ (Text.lines text.toList)[i]? = some raw ∧ trim raw = t) ∧
    (contentLines text.toList).Pairwise fun l l' => l.number < l'.number := by
  have htrim := @trimmed_of_mem_contentLines text.toList
  refine ⟨⟨?_, ?_⟩, fun split split' h h' => h.unique h' htrim, ?_, ?_, pairwise_contentFrom 1 _⟩
  · rintro ⟨c, hc⟩
    cases hscan : scan (contentLines text.toList) with
    | mk items fault? =>
        cases fault? with
        | some fault => simp [read, hscan, Scan.outcome] at hc
        | none =>
            obtain ⟨split, hsplit, hitems⟩ := exists_splits htrim (congrArg Scan.fault? hscan)
            rw [hscan] at hitems
            refine ⟨split, hsplit, ?_⟩
            rw [hitems]
            cases hconfig : config? items with
            | none => simp [read, hscan, Scan.outcome, hconfig] at hc
            | some c' => exact exists_coEditor_of_config? hconfig
  · rintro ⟨split, hsplit, hsome⟩
    exact accepted_of_scan (hsplit.scan_eq htrim) hsome
  · intro split before size after hsplit hitems hafter
    rw [read_eq_ok (hsplit.scan_eq htrim) (config?_eq_some hitems hafter), List.map_map]
    exact ⟨rfl, rfl⟩
  · intro n t
    rw [contentLines, mem_contentFrom]
    constructor
    · rintro ⟨i, raw, hraw, hne, heq⟩
      obtain ⟨rfl, rfl⟩ := Line.mk.inj heq
      exact ⟨hne, i, raw, Nat.add_comm 1 i, hraw, rfl⟩
    · rintro ⟨hne, i, raw, rfl, hraw, rfl⟩
      exact ⟨i, raw, hraw, hne, by rw [Nat.add_comm]⟩

/-- A note, a producer with a blank line in it, and a shared capacity that is not spelled as it
is written. -/
theorem reads_items_noted :
    ∃ split,
      Splits (contentLines
        "# desk\nPRODUCER  1\r\n\n30\nqueue size=5\nCo-Editor queue size = +017".toList) split ∧
      split.map Prod.fst = [.note ⟨1, "# desk".toList⟩, .producer ⟨1, 30, 5⟩, .coEditor 17] ∧
      (read "# desk\nPRODUCER  1\r\n\n30\nqueue size=5\nCo-Editor queue size = +017").value =
        .ok ⟨[⟨1, 30, 5⟩], 17, { editDelayMs := 100, seed := none }⟩ := by
  have hscan : scan (contentLines
      "# desk\nPRODUCER  1\r\n\n30\nqueue size=5\nCo-Editor queue size = +017".toList) =
      ⟨[.note ⟨1, "# desk".toList⟩, .producer ⟨1, 30, 5⟩, .coEditor 17], none⟩ := by
    decide +kernel
  obtain ⟨split, hsplit, hitems⟩ :=
    exists_splits trimmed_of_mem_contentLines (congrArg Scan.fault? hscan)
  rw [hscan] at hitems
  have hlast : split.map Prod.fst =
      [.note ⟨1, "# desk".toList⟩, .producer ⟨1, 30, 5⟩] ++ .coEditor 17 :: [] := hitems
  have hread := ((reads_items _).2.2.1 split _ 17 [] hsplit hlast (by simp)).1
  rw [hitems] at hread
  exact ⟨split, hsplit, hitems, hread⟩

end Newsroom.Descriptor

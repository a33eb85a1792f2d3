import Newsroom.Proofs.Descriptor.Items

/-!
# Layouts of a descriptor

A configuration can be written down in many ways, and is read back from all of them.

## Main Definitions

* `Blanks`, `Gap`, `Margin` — what may stand around the words of a line and below it
* `Entry` — what is written on the lines of a descriptor, with all that stands around it
* `Layout` — a way to write down producers and a shared capacity
* `Layout.text` — the text that is written
* `Layout.plain` — the one way that a descriptor is usually written

## Main Statements

* `contentFrom_rows` — the lines that say something are those that were written
* `spelled_lines` — the lines of an entry are those of an item
* `reads_back` — what was written down is read back

## Design Notes

What a layout must not do is excluded by the types of its parts: blanks are blank and end no line,
a comment begins as no item does, and a layout has one line for the shared capacity.  So nothing
is assumed about a layout where it is read.
-/

namespace Newsroom.Descriptor

open Text (AllBlank LineEnd)

/-! ### Blanks -/

/-- Blanks within a line. -/
structure Blanks where
  chars : List Char
  allBlank : AllBlank chars
  inLine : '\n' ∉ chars

/-- No blanks. -/
def Blanks.none : Blanks := ⟨[], Text.allBlank_nil, by simp⟩

/-- A space. -/
def Blanks.space : Blanks := ⟨[' '], by decide, by decide⟩

/-- At least one blank within a line. -/
structure Gap extends Blanks where
  ne_nil : chars ≠ []

/-- A line of blanks alone. -/
structure BlankLine where
  blanks : Blanks
  lineEnd : LineEnd

/-- The characters of a line of blanks, with its end. -/
def BlankLine.row (l : BlankLine) : List Char × LineEnd :=
  (l.blanks.chars, l.lineEnd)

/-- What stands around what a line says, and the lines of blanks below it. -/
structure Margin where
  left : Blanks := .none
  right : Blanks := .none
  lineEnd : LineEnd := .lf
  below : List BlankLine := []

namespace Margin

/-- The lines of a text with its margin. -/
def rows (m : Margin) (text : List Char) : List (List Char × LineEnd) :=
  (m.left.chars ++ text ++ m.right.chars, m.lineEnd) :: m.below.map BlankLine.row

/-- How many lines a text with its margin takes. -/
def height (m : Margin) : Nat := 1 + m.below.length

end Margin

/-! ### Entries -/

/-- A line that begins as no item does. -/
structure Comment where
  text : List Char
  said : Said text
  not_producer : ¬ producerTag <+: text
  not_coEditor : ¬ coEditorTag <+: text

/-- What is written on the lines of a descriptor: a producer, the shared capacity or a comment. -/
inductive Entry where
  /-- A producer, with the blanks between its words and around its `=`. -/
  | producer (spec : ProducerSpec) (gap : Gap) (left right : Blanks) (header count size : Margin)
  /-- The shared capacity, with the blanks around its `=`. -/
  | coEditor (size : UInt64) (left right : Blanks) (margin : Margin)
  | comment (comment : Comment) (margin : Margin)

namespace Entry

/-- The producer of an entry. -/
def spec? : Entry → Option ProducerSpec
  | producer spec .. => some spec
  | _ => none

/-- The shared capacity of an entry. -/
def size? : Entry → Option UInt64
  | coEditor size .. => some size
  | _ => none

/-- What the lines of an entry say, each with its margin. -/
def lines : Entry → List (List Char × Margin)
  | producer spec gap left right header count size =>
      [(producerTag ++ gap.chars ++ Text.decimal spec.id.toNat, header),
        (Text.decimal spec.messages.toNat, count),
        (assignment sizeTag left.chars right.chars spec.queueSize.toNat, size)]
  | coEditor size left right margin =>
      [(assignment coEditorTag left.chars right.chars size.toNat, margin)]
  | comment c margin => [(c.text, margin)]

end Entry

variable {ls : List (List Char × Margin)}

/-- How many lines there are, with their margins. -/
def height : List (List Char × Margin) → Nat
  | [] => 0
  | (_, margin) :: ls => margin.height + height ls

/-- What lines say, with their numbers, of which `n` is the first. -/
def numbered (n : Nat) : List (List Char × Margin) → List Line
  | [] => []
  | (text, margin) :: ls => ⟨n, text⟩ :: numbered (n + margin.height) ls

/-- The comments among entries, with the numbers of their lines, of which `n` is the first. -/
def comments (n : Nat) : List Entry → List Line
  | [] => []
  | e :: es =>
      match e with
      | .comment c _ => ⟨n, c.text⟩ :: comments (n + height e.lines) es
      | _ => comments (n + height e.lines) es

/-! ### Layouts -/

/-- A way to write down producers and a shared capacity, with any comments. -/
structure Layout (specs : List ProducerSpec) (size : UInt64) where
  /-- The lines of blanks at the beginning. -/
  above : List BlankLine
  entries : List Entry
  /-- Whether the last line is ended. -/
  final : Bool
  producers : entries.filterMap Entry.spec? = specs
  coEditor : entries.filterMap Entry.size? = [size]

namespace Layout

variable {specs : List ProducerSpec} {size : UInt64}

/-- The lines of a layout. -/
def rows (l : Layout specs size) : List (List Char × LineEnd) :=
  l.above.map BlankLine.row ++ (l.entries.flatMap Entry.lines).flatMap fun (text, m) => m.rows text

/-- The text of a layout. -/
def text (l : Layout specs size) : String :=
  String.ofList (Text.unlines l.final l.rows)

/-- A producer with a blank line below it and no blanks that could be left out, but for those
around its `=`. -/
def plainProducer (spec : ProducerSpec) : Entry :=
  .producer spec ⟨.space, by simp [Blanks.space]⟩ .space .space {} {} { below := [⟨.none, .lf⟩] }

/-- The layout of producers in turn and the shared capacity after them, without comments. -/
def plain (specs : List ProducerSpec) (size : UInt64) : Layout specs size where
  above := []
  entries := specs.map plainProducer ++ [.coEditor size .space .space {}]
  final := true
  producers := by
    have hspec : Entry.spec? ∘ plainProducer = some := rfl
    rw [List.filterMap_append, List.filterMap_map, hspec, List.filterMap_some]
    exact List.append_nil specs
  coEditor := by
    have hnone : specs.filterMap (Entry.size? ∘ plainProducer) = [] :=
      List.filterMap_eq_nil_iff.2 fun _ _ => rfl
    rw [List.filterMap_append, List.filterMap_map, hnone]
    rfl

instance : Inhabited (Layout specs size) := ⟨plain specs size⟩

example : (plain [⟨1, 30, 5⟩] 17).text =
    "PRODUCER 1\n30\nqueue size = 5\n\nCo-Editor queue size = 17\n" := by
  decide +kernel

end Layout

/-! ### Lines that were written -/

theorem said_of_mem_lines {e : Entry} : ∀ l ∈ e.lines, Said l.1 := by
  intro l hl
  cases e with
  | producer spec gap left right header count size =>
      have hheader : Said (producerTag ++ gap.chars ++ Text.decimal spec.id.toNat) :=
        said_producerTag.append (said_decimal _) gap.inLine
      have hsize := said_assignment said_sizeTag left.inLine right.inLine spec.queueSize.toNat
      simp only [Entry.lines, List.mem_cons, List.not_mem_nil, or_false] at hl
      rcases hl with rfl | rfl | rfl
      · exact hheader
      · exact said_decimal _
      · exact hsize
  | coEditor size left right margin =>
      rw [List.mem_singleton.1 hl]
      exact said_assignment said_coEditorTag left.inLine right.inLine size.toNat
  | comment c margin =>
      rw [List.mem_singleton.1 hl]
      exact c.said

theorem numbered_append (n : Nat) (as bs : List (List Char × Margin)) :
    numbered n (as ++ bs) = numbered n as ++ numbered (n + height as) bs := by
  induction as generalizing n with
  | nil => rfl
  | cons l as ih =>
      rw [List.cons_append, numbered, numbered, height, ih, Nat.add_assoc]
      rfl

/-- Lines of blanks say nothing. -/
theorem contentFrom_blankLines (n : Nat) (ls : List BlankLine) :
    contentFrom n ((ls.map BlankLine.row).map Prod.fst) = [] := by
  rw [contentFrom_eq_nil_iff, List.map_map]
  intro raw hraw
  obtain ⟨l, -, rfl⟩ := List.mem_map.1 hraw
  exact Text.trim_eq_nil_iff.2 l.blanks.allBlank

/-- The lines that say something are those that were written. -/
theorem contentFrom_rows (hsaid : ∀ l ∈ ls, Said l.1) (n : Nat) :
    contentFrom n ((ls.flatMap fun (text, m) => m.rows text).map Prod.fst) = numbered n ls := by
  induction ls generalizing n with
  | nil => rfl
  | cons l ls ih =>
      obtain ⟨hl, hls⟩ := List.forall_mem_cons.1 hsaid
      obtain ⟨text, m⟩ := l
      have hheight : ((m.rows text).map Prod.fst).length = m.height := by
        simp [Margin.rows, Margin.height, Nat.add_comm]
      have hhead : contentFrom n ((m.rows text).map Prod.fst) = [⟨n, text⟩] := by
        unfold Margin.rows
        rw [List.map_cons, contentFrom_cons, contentFrom_blankLines, List.append_nil]
        exact contentAt_of_said hl m.left.allBlank m.right.allBlank n
      rw [List.flatMap_cons, List.map_append, contentFrom_append, hheight, hhead, ih hls]
      rfl

/-- No line of a layout has a line end in it. -/
theorem newline_not_mem_rows (hsaid : ∀ l ∈ ls, Said l.1) :
    ∀ row ∈ ls.flatMap fun (text, m) => m.rows text, '\n' ∉ row.1 := by
  intro row hrow
  obtain ⟨⟨text, m⟩, hl, hrow⟩ := List.mem_flatMap.1 hrow
  rcases List.mem_cons.1 hrow with rfl | hblank
  · simp [m.left.inLine, m.right.inLine, (hsaid _ hl).inLine]
  · obtain ⟨b, -, rfl⟩ := List.mem_map.1 hblank
    exact b.blanks.inLine

/-! ### Items that were written -/

/-- The item of an entry, the first line of which has the number `n`. -/
def Entry.item (n : Nat) : Entry → Item
  | producer spec .. => .producer spec
  | coEditor size .. => .coEditor size
  | comment c _ => .note ⟨n, c.text⟩

/-- The items of entries, the first line of which has the number `n`. -/
def items (n : Nat) : List Entry → List Item
  | [] => []
  | e :: es => e.item n :: items (n + height e.lines) es

/-- The lines of an entry are those of its item. -/
theorem spelled_lines (e : Entry) (n : Nat) : (e.item n).Spelled (numbered n e.lines) := by
  cases e with
  | producer spec gap left right header count size =>
      refine .producer ?_ (Text.numeral_decimal _) ?_ ?_
      · exact ⟨gap.chars, _, gap.ne_nil, gap.allBlank, Text.numeral_decimal _, rfl⟩
      · exact (key_prefix_assignment sizeTag _ _ _).isInfix
      · exact assigns_assignment (by decide) left.allBlank right.allBlank _
  | coEditor size left right margin =>
      exact spelled_coEditor left.allBlank right.allBlank n size
  | comment c margin => exact .note c.not_producer c.not_coEditor

theorem trimmed_of_mem_numbered (hsaid : ∀ l ∈ ls, Said l.1) (n : Nat) :
    ∀ l ∈ numbered n ls, Text.Trimmed l.text := by
  induction ls generalizing n with
  | nil => simp [numbered]
  | cons l ls ih =>
      obtain ⟨hl, hls⟩ := List.forall_mem_cons.1 hsaid
      exact List.forall_mem_cons.2 ⟨hl.trimmed, ih hls _⟩

/-- Entries are scanned as their items. -/
theorem scan_entries (n : Nat) (es : List Entry) :
    scan (numbered n (es.flatMap Entry.lines)) = ⟨items n es, none⟩ := by
  induction es generalizing n with
  | nil => rfl
  | cons e es ih =>
      have htrim := trimmed_of_mem_numbered (@said_of_mem_lines e) n
      rw [List.flatMap_cons, numbered_append, scan_append (spelled_lines e n) htrim, ih]
      rfl

/-- What is asked of items can be asked of the entries that they come from. -/
theorem filterMap_items {α : Type} {f : Item → Option α} {g : Entry → Option α}
    (h : ∀ n e, f (Entry.item n e) = g e) (n : Nat) (es : List Entry) :
    (items n es).filterMap f = es.filterMap g := by
  induction es generalizing n with
  | nil => rfl
  | cons e es ih => rw [items, List.filterMap_cons, List.filterMap_cons, h, ih]

theorem producer?_item (n : Nat) (e : Entry) : (e.item n).producer? = e.spec? := by
  cases e <;> rfl

theorem coEditor?_item (n : Nat) (e : Entry) : (e.item n).coEditor? = e.size? := by
  cases e <;> rfl

theorem filterMap_note?_items (n : Nat) (es : List Entry) :
    (items n es).filterMap Item.note? = comments n es := by
  induction es generalizing n with
  | nil => rfl
  | cons e es ih =>
      rw [items, List.filterMap_cons, ih]
      cases e <;> rfl

/-- What was written down is read back, whatever the layout: the producers in turn, the shared
capacity and the default settings, with a warning for each comment and no other. -/
theorem reads_back {specs : List ProducerSpec} {size : UInt64} (l : Layout specs size) :
    read l.text =
      ⟨.ok ⟨specs, size, { editDelayMs := 100, seed := none }⟩,
        (comments (1 + l.above.length) l.entries).map fun c =>
          .ignoredLine c.number (String.ofList c.text)⟩ := by
  have hsaid : ∀ line ∈ l.entries.flatMap Entry.lines, Said line.1 := by
    intro line hline
    obtain ⟨e, -, he⟩ := List.mem_flatMap.1 hline
    exact said_of_mem_lines line he
  have hnewline : ∀ row ∈ l.rows, '\n' ∉ row.1 := by
    refine List.forall_mem_append.2 ⟨?_, newline_not_mem_rows hsaid⟩
    intro row hrow
    obtain ⟨b, -, rfl⟩ := List.mem_map.1 hrow
    exact b.blanks.inLine
  have hcontent : contentLines l.text.toList =
      numbered (1 + l.above.length) (l.entries.flatMap Entry.lines) := by
    rw [contentLines, Layout.text, String.toList_ofList, contentFrom_lines_unlines hnewline,
      Layout.rows, List.map_append, contentFrom_append, contentFrom_blankLines,
      contentFrom_rows hsaid, List.length_map, List.length_map]
    rfl
  have hconfig : config? (items (1 + l.above.length) l.entries) =
      some (.ofProducers specs size) := by
    rw [config?, filterMap_items producer?_item, filterMap_items coEditor?_item, l.producers,
      l.coEditor]
    rfl
  have hscan : scan (contentLines l.text.toList) =
      ⟨items (1 + l.above.length) l.entries, none⟩ := by
    rw [hcontent, scan_entries]
  rw [read_eq_ok hscan hconfig, filterMap_note?_items]
  rfl

end Newsroom.Descriptor

import Newsroom.Config.Descriptor
import Newsroom.Proofs.Text.Lines
import Newsroom.Proofs.Text.Numeral

/-!
# The lines of a descriptor

Which lines of a text say something, and what each kind of line has to look like.

## Main Definitions

* `Said` — what a line can say
* `Names`, `Assigns` — the shapes of the line that opens a producer and of one that gives a
  capacity
* `assignment` — a line that gives a capacity, as it is written

## Main Statements

* `mem_contentFrom` — the lines that say something, with their numbers
* `exists_of_contentFrom_eq` — where such a line stands in the text
* `contentFrom_lines_unlines` — the lines of a text that was put together from lines
* `producerId_eq_ok_iff`, `messageCount_eq_ok_iff`, `queueSize_eq_ok_iff`,
  `coEditorSize_eq_ok_iff` — the lines that are read without a fault
-/

namespace Newsroom.Descriptor

open Text (AllBlank Numeral Trimmed trim)

variable {n : Nat} {l : Line} {text raw key a b : List Char} {ls as bs : List (List Char)}

/-! ### Lines that say something -/

/-- What a line with a number says, if it is not blank. -/
def contentAt (n : Nat) (raw : List Char) : List Line :=
  if trim raw = [] then [] else [⟨n, trim raw⟩]

theorem contentFrom_cons (n : Nat) (raw : List Char) (ls : List (List Char)) :
    contentFrom n (raw :: ls) = contentAt n raw ++ contentFrom (n + 1) ls := by
  rw [contentFrom, contentAt]
  by_cases h : trim raw = [] <;> simp [h]

theorem contentFrom_append (n : Nat) (as bs : List (List Char)) :
    contentFrom n (as ++ bs) = contentFrom n as ++ contentFrom (n + as.length) bs := by
  induction as generalizing n with
  | nil => rfl
  | cons a as ih =>
      rw [List.cons_append, contentFrom_cons, contentFrom_cons, ih, List.length_cons,
        List.append_assoc, Nat.add_right_comm, Nat.add_assoc]

/-- What lines say does not depend on the blanks around them. -/
theorem contentFrom_congr (h : as.map trim = bs.map trim) :
    contentFrom n as = contentFrom n bs := by
  induction as generalizing n bs with
  | nil =>
      rw [List.map_nil, eq_comm, List.map_eq_nil_iff] at h
      rw [h]
  | cons a as ih =>
      obtain ⟨b, bs, rfl⟩ : ∃ b bs', bs = b :: bs' := by
        cases bs with
        | nil => cases h
        | cons b bs => exact ⟨b, bs, rfl⟩
      obtain ⟨hhead, htail⟩ := List.cons.inj h
      rw [contentFrom_cons, contentFrom_cons, ih htail, contentAt, contentAt, hhead]

theorem contentFrom_eq_nil_iff : contentFrom n ls = [] ↔ ∀ raw ∈ ls, trim raw = [] := by
  induction ls generalizing n with
  | nil => simp [contentFrom]
  | cons raw ls ih =>
      rw [contentFrom_cons, List.append_eq_nil_iff, ih, List.forall_mem_cons, contentAt]
      simp

/-- The lines of a text that was put together from lines. -/
theorem contentFrom_lines_unlines {rows : List (List Char × Text.LineEnd)}
    (h : ∀ row ∈ rows, '\n' ∉ row.1) (final : Bool) :
    contentFrom n (Text.lines (Text.unlines final rows)) = contentFrom n (rows.map Prod.fst) := by
  induction rows generalizing n with
  | nil => rfl
  | cons row rows ih =>
      obtain ⟨hrow, hrows⟩ := List.forall_mem_cons.1 h
      rw [Text.unlines]
      split
      · -- the last line has no end, and is no line of the text if it is empty
        next hopen =>
        obtain ⟨hend, -⟩ := Bool.and_eq_true_iff.1 hopen
        obtain rfl := List.isEmpty_iff.1 hend
        rw [Text.unlines, List.append_nil, List.append_nil, List.map_cons, List.map_nil]
        by_cases hempty : row.1 = []
        · rw [hempty]
          rfl
        · rw [Text.lines_eq_singleton hrow hempty]
      · obtain ⟨l', htrim, hlines⟩ := Text.trim_lines_append hrow row.2 (Text.unlines final rows)
        rw [hlines, List.map_cons, contentFrom_cons, contentFrom_cons, ih hrows, contentAt,
          contentAt, htrim]

/-- Where a line that says something stands in a text. -/
theorem exists_of_contentFrom_eq {before after : List Line}
    (h : contentFrom n ls = before ++ l :: after) :
    ∃ as raw bs, ls = as ++ raw :: bs ∧ contentFrom n as = before ∧
      l = ⟨n + as.length, trim raw⟩ ∧ trim raw ≠ [] ∧
      contentFrom (n + as.length + 1) bs = after := by
  induction ls generalizing n before with
  | nil => simp [contentFrom] at h
  | cons raw ls ih =>
      -- a line that stands behind the first one is found among the others
      have hlater : ∀ before', contentFrom (n + 1) ls = before' ++ l :: after →
          before = contentAt n raw ++ before' →
          ∃ as raw' bs, raw :: ls = as ++ raw' :: bs ∧ contentFrom n as = before ∧
            l = ⟨n + as.length, trim raw'⟩ ∧ trim raw' ≠ [] ∧
            contentFrom (n + as.length + 1) bs = after := by
        rintro before' hrest rfl
        obtain ⟨as, raw', bs, rfl, hbefore, rfl, hne, hafter⟩ := ih hrest
        have hlength : n + 1 + as.length = n + (raw :: as).length := by
          rw [List.length_cons]
          omega
        rw [hlength] at hafter ⊢
        exact ⟨raw :: as, raw', bs, rfl, by rw [contentFrom_cons, hbefore], rfl, hne, hafter⟩
      rw [contentFrom_cons] at h
      by_cases hblank : trim raw = []
      · rw [contentAt, if_pos hblank] at h hlater
        exact hlater before h rfl
      · rw [contentAt, if_neg hblank] at h hlater
        cases before with
        | nil =>
            obtain ⟨rfl, rfl⟩ := List.cons.inj h
            exact ⟨[], raw, ls, rfl, rfl, rfl, hblank, rfl⟩
        | cons b before =>
            obtain ⟨rfl, hrest⟩ := List.cons.inj h
            exact hlater before hrest rfl

/-- The lines that say something, with their numbers. -/
theorem mem_contentFrom :
    l ∈ contentFrom n ls ↔
      ∃ i raw, ls[i]? = some raw ∧ trim raw ≠ [] ∧ l = ⟨n + i, trim raw⟩ := by
  constructor
  · intro h
    obtain ⟨before, after, heq⟩ := List.append_of_mem h
    obtain ⟨as, raw, bs, rfl, -, rfl, hne, -⟩ := exists_of_contentFrom_eq heq
    exact ⟨as.length, raw, by simp, hne, rfl⟩
  · rintro ⟨i, raw, hraw, hne, rfl⟩
    obtain ⟨hi, hget⟩ := List.getElem?_eq_some_iff.1 hraw
    have hlength : (ls.take i).length = i := List.length_take_of_le (Nat.le_of_lt hi)
    have hls : ls = ls.take i ++ raw :: ls.drop (i + 1) := by
      rw [← hget, ← List.drop_eq_getElem_cons hi, List.take_append_drop]
    rw [hls, contentFrom_append, contentFrom_cons, hlength, contentAt]
    simp [hne]

/-- Lines are numbered in turn. -/
theorem pairwise_contentFrom (n : Nat) (ls : List (List Char)) :
    (contentFrom n ls).Pairwise fun l l' => l.number < l'.number := by
  induction ls generalizing n with
  | nil => exact List.Pairwise.nil
  | cons raw ls ih =>
      have hlater : ∀ l ∈ contentFrom (n + 1) ls, n < l.number := by
        intro l hl
        obtain ⟨i, raw', -, -, rfl⟩ := mem_contentFrom.1 hl
        dsimp only
        omega
      rw [contentFrom_cons, contentAt]
      split
      · exact ih (n + 1)
      · exact List.pairwise_cons.2 ⟨hlater, ih (n + 1)⟩

theorem trimmed_of_mem_contentFrom (h : l ∈ contentFrom n ls) : Trimmed l.text := by
  obtain ⟨i, raw, -, -, rfl⟩ := mem_contentFrom.1 h
  exact Text.trimmed_trim raw

/-! ### What a line says -/

/-- What a line can say: at least one character, no blank at either end and no line end. -/
structure Said (text : List Char) : Prop where
  trimmed : Trimmed text
  ne_nil : text ≠ []
  inLine : '\n' ∉ text

instance : Decidable (Said text) :=
  decidable_of_iff (Trimmed text ∧ text ≠ [] ∧ '\n' ∉ text)
    ⟨fun ⟨htrimmed, hne, hline⟩ => ⟨htrimmed, hne, hline⟩,
      fun h => ⟨h.trimmed, h.ne_nil, h.inLine⟩⟩

theorem Said.append (ha : Said a) (hb : Said b) (htext : '\n' ∉ text) : Said (a ++ text ++ b) where
  trimmed := ha.trimmed.append hb.trimmed ha.ne_nil hb.ne_nil text
  ne_nil := by simp [ha.ne_nil]
  inLine := by simp [ha.inLine, hb.inLine, htext]

/-- Blanks around what a line says make no difference. -/
theorem contentAt_of_said (h : Said text) (ha : AllBlank a) (hb : AllBlank b) (n : Nat) :
    contentAt n (a ++ text ++ b) = [⟨n, text⟩] := by
  unfold contentAt
  rw [Text.trim_append_append h.trimmed ha hb, if_neg h.ne_nil]

theorem said_decimal (n : Nat) : Said (Text.decimal n) where
  trimmed := (Text.numeral_decimal n).solid.trimmed
  ne_nil := (Text.numeral_decimal n).solid.ne_nil
  inLine hmem := by
    have hdigit := List.all_eq_true.1 (Text.all_isDigit_decimal n) '\n' hmem
    cases hdigit

theorem said_producerTag : Said producerTag := by decide

theorem said_coEditorTag : Said coEditorTag := by decide

theorem said_sizeTag : Said sizeTag := by decide

/-- A line of the word `PRODUCER`, blanks and the spelling of a number. -/
def Names (text : List Char) (id : Nat) : Prop :=
  ∃ gap numeral, gap ≠ [] ∧ AllBlank gap ∧ Numeral id numeral ∧
    text = producerTag ++ gap ++ numeral

/-- A line in which the spelling of a number, with blanks around it, follows the first `=`. -/
def Assigns (text : List Char) (value : Nat) : Prop :=
  ∃ key rest, '=' ∉ key ∧ text = key ++ '=' :: rest ∧ Numeral value (trim rest)

/-- A line that gives a capacity, with what stands around its `=`. -/
def assignment (key a b : List Char) (value : Nat) : List Char :=
  key ++ (a ++ '=' :: b) ++ Text.decimal value

theorem assigns_assignment (hkey : '=' ∉ key) (ha : AllBlank a) (hb : AllBlank b) (value : Nat) :
    Assigns (assignment key a b value) value := by
  have hnumeral := Text.numeral_decimal value
  have htrim : trim (b ++ Text.decimal value ++ []) = Text.decimal value :=
    Text.trim_append_append hnumeral.solid.trimmed hb Text.allBlank_nil
  rw [List.append_nil] at htrim
  refine ⟨key ++ a, b ++ Text.decimal value, ?_, by simp [assignment], by rwa [htrim]⟩
  rw [List.mem_append, not_or]
  refine ⟨hkey, fun ha' => ?_⟩
  cases ha '=' ha'

theorem said_assignment (hkey : Said key) (ha : '\n' ∉ a) (hb : '\n' ∉ b) (value : Nat) :
    Said (assignment key a b value) :=
  hkey.append (said_decimal value) (by simp [ha, hb])

theorem key_prefix_assignment (key a b : List Char) (value : Nat) :
    key <+: assignment key a b value := by
  unfold assignment
  rw [List.append_assoc]
  exact List.prefix_append key _

section

variable {f : String → DescriptorFault} {shape : DescriptorFault}

theorem number_eq_ok_iff {w : UInt64} : number f raw = .ok w ↔ Numeral w.toNat raw := by
  rw [← Text.word64?_eq_some_iff, number]
  cases Text.word64? raw <;> simp

theorem assigned_eq_ok_iff {w : UInt64} :
    assigned shape f text = .ok w ↔ Assigns text w.toNat := by
  unfold assigned Assigns
  split
  · next rest hrest =>
    rw [number_eq_ok_iff]
    constructor
    · intro hnumeral
      obtain ⟨key, hkey, htext⟩ := Text.afterFirst?_eq_some_iff.1 hrest
      exact ⟨key, rest, hkey, htext, hnumeral⟩
    · rintro ⟨key, rest', hkey, htext, hnumeral⟩
      have hfirst := Text.afterFirst?_eq_some_iff.2 ⟨key, hkey, htext⟩
      cases hrest.symm.trans hfirst
      exact hnumeral
  · next hnone =>
    constructor
    · intro h
      cases h
    · rintro ⟨key, rest, hkey, htext, -⟩
      cases hnone.symm.trans (Text.afterFirst?_eq_some_iff.2 ⟨key, hkey, htext⟩)

end

theorem messageCount_eq_ok_iff {w : UInt64} : messageCount text = .ok w ↔ Numeral w.toNat text :=
  number_eq_ok_iff

theorem coEditorSize_eq_ok_iff {w : UInt64} : coEditorSize text = .ok w ↔ Assigns text w.toNat :=
  assigned_eq_ok_iff

theorem queueSize_eq_ok_iff {w : UInt64} :
    queueSize text = .ok w ↔ sizeTag <:+: text ∧ Assigns text w.toNat := by
  rw [queueSize, ← Text.occursIn_iff]
  split
  · next hmention => simp [hmention, assigned_eq_ok_iff]
  · next hmention => simp [hmention]

theorem solid_producerTag : Text.Solid producerTag := by decide

theorem producerId_eq_ok_iff {w : UInt32} (h : Trimmed text) :
    producerId text = .ok w ↔ Names text w.toNat := by
  constructor
  · intro hid
    unfold producerId at hid
    split at hid
    · next tag numeral hwords =>
      split at hid
      · next htag =>
        subst htag
        split at hid
        · next n hn =>
          cases hid
          obtain ⟨-, -, gap, hne, hgap, htext⟩ := (Text.words_eq_pair_iff h).1 hwords
          exact ⟨gap, numeral, hne, hgap, Text.word32?_eq_some_iff.1 hn, htext⟩
        · cases hid
      · cases hid
    · cases hid
  · rintro ⟨gap, numeral, hne, hgap, hnumeral, htext⟩
    have hwords : Text.words text = [producerTag, numeral] :=
      (Text.words_eq_pair_iff h).2 ⟨solid_producerTag, hnumeral.solid, gap, hne, hgap, htext⟩
    simp [producerId, hwords, Text.word32?_eq_some_iff.2 hnumeral]

end Newsroom.Descriptor

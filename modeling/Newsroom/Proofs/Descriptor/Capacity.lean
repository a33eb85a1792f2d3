import Newsroom.Proofs.Descriptor.Items

/-!
# The lines that give capacities

Which line of a descriptor the shared capacity is read from, and which line the capacity of a
producer.

## Main Definitions

* `sizeLines` — the lines that the capacities of the producers are read from
* `LastShared` — the last line of the shared capacity, apart from some lines

## Main Statements

* `Splits.lastShared`, `LastShared.unique` — the last shared capacity stands on the last of its
  lines, and no other number does
* `shared_capacity_of_last` — where the capacities of an accepted text come from
* `shared_line_taken_for_size` — a text in which a producer takes the line of the shared
  capacity for its own

## Design Notes

A line that begins as that of the shared capacity also mentions a queue size.  Behind the
number of articles of a producer it therefore completes the producer, and the shared capacity
is left to the lines elsewhere.
-/

namespace Newsroom.Descriptor

open Text (Numeral)

variable {text : List Char} {l q : Line} {ls group : List Line} {split : List (Item × List Line)}
  {spec : ProducerSpec} {value : Nat}

/-- The line that the capacity of a producer is read from: the third of its lines.  No other
item has as many. -/
def sizeLine? (entry : Item × List Line) : Option Line := entry.2[2]?

/-- The lines that the capacities of the producers are read from. -/
def sizeLines (split : List (Item × List Line)) : List Line :=
  split.filterMap sizeLine?

/-- Among some lines, the last that begins as that of the shared capacity gives a number.
Lines that are left out do not count. -/
def LastShared (ls leftOut : List Line) (value : Nat) : Prop :=
  ∃ before l after, ls = before ++ l :: after ∧
    coEditorTag <+: l.text ∧ l ∉ leftOut ∧ Assigns l.text value ∧
    ∀ l' ∈ after, coEditorTag <+: l'.text → l' ∈ leftOut

/-! ### Size lines -/

theorem sizeLines_append (split split' : List (Item × List Line)) :
    sizeLines (split ++ split') = sizeLines split ++ sizeLines split' :=
  List.filterMap_append

theorem sizeLines_cons (entry : Item × List Line) (split : List (Item × List Line)) :
    sizeLines (entry :: split) = (sizeLine? entry).toList ++ sizeLines split := by
  unfold sizeLines
  cases h : sizeLine? entry with
  | none => rw [List.filterMap_cons_none h, Option.toList_none, List.nil_append]
  | some q => rw [List.filterMap_cons_some h, Option.toList_some, List.singleton_append]

/-- Size lines are lines. -/
theorem Splits.mem_of_mem_sizeLines (h : Splits ls split) (hq : q ∈ sizeLines split) :
    q ∈ ls := by
  induction h with
  | nil => cases hq
  | @cons item group ls split hitem hrest ih =>
      rw [sizeLines_cons, List.mem_append, Option.mem_toList] at hq
      rcases hq with hfirst | hlater
      · exact List.mem_append_left ls (List.mem_of_getElem? hfirst)
      · exact List.mem_append_right group (ih hlater)

/-- The capacity of a producer is read from its size line. -/
theorem Splits.size_of_producer (h : Splits ls split) (hmem : (.producer spec, group) ∈ split) :
    ∃ q ∈ sizeLines split, group[2]? = some q ∧ sizeTag <:+: q.text ∧
      Assigns q.text spec.queueSize.toNat := by
  induction h with
  | nil => cases hmem
  | @cons item group' ls split hitem hrest ih =>
      rw [sizeLines_cons]
      rcases List.mem_cons.1 hmem with heq | hlater
      · cases heq
        cases hitem with
        | @producer spec l c q hid hcount hmention hsize =>
            exact ⟨q, List.mem_append_left _ (by simp [sizeLine?]), rfl, hmention, hsize⟩
      · obtain ⟨q, hq, hlast⟩ := ih hlater
        exact ⟨q, List.mem_append_right _ hq, hlast⟩

/-! ### The last shared capacity -/

/-- The spelling of a number does not begin as the line of the shared capacity. -/
theorem not_coEditor_of_numeral (h : Numeral value text) : ¬ coEditorTag <+: text := by
  rintro ⟨rest, rfl⟩
  rcases h.eq_plus_or_isDigit 'C' (List.mem_append_left _ (by decide)) with hplus | hdigit
  · cases hplus
  · cases hdigit

/-- Where items give no shared capacity, only a size line begins as its line does. -/
theorem Splits.mem_sizeLines_of_coEditor (h : Splits ls split)
    (hnone : ∀ n, .coEditor n ∉ split.map Prod.fst) (hl : l ∈ ls) (htag : coEditorTag <+: l.text) :
    l ∈ sizeLines split := by
  induction h with
  | nil => cases hl
  | @cons item group ls split hitem hrest ih =>
      rw [List.map_cons] at hnone
      have hlater : ∀ n, .coEditor n ∉ split.map Prod.fst :=
        fun n hn => hnone n (List.mem_cons_of_mem item hn)
      rw [sizeLines_cons]
      rcases List.mem_append.1 hl with hgroup | hl
      · -- of the three kinds of items only a producer has such a line, behind its first two
        cases hitem with
        | @producer spec h c q hid hcount hmention hsize =>
            simp only [List.mem_cons, List.not_mem_nil, or_false] at hgroup
            rcases hgroup with rfl | rfl | rfl
            · exact absurd hid.begins (not_producer_of_coEditor htag)
            · exact absurd htag (not_coEditor_of_numeral hcount)
            · exact List.mem_append_left _ (by simp [sizeLine?])
        | coEditor htag' hsize => exact absurd List.mem_cons_self (hnone _)
        | note hproducer hcoEditor =>
            rw [List.mem_singleton.1 hgroup] at htag
            exact absurd htag hcoEditor
      · exact List.mem_append_right _ (ih hlater hl)

/-- Lines that fall into items, taken apart at one of them. -/
theorem Splits.exists_of_append {first last : List (Item × List Line)} {entry : Item × List Line}
    (h : Splits ls (first ++ entry :: last)) :
    ∃ before after, ls = before ++ entry.2 ++ after ∧ Splits before first ∧
      entry.1.Spelled entry.2 ∧ Splits after last := by
  induction first generalizing ls with
  | nil =>
      cases h with
      | @cons item group ls split hitem hrest => exact ⟨[], ls, rfl, .nil, hitem, hrest⟩
  | cons e first ih =>
      cases h with
      | @cons item group ls split hitem hrest =>
          obtain ⟨before, after, rfl, hfirst, hentry, hlast⟩ := ih hrest
          exact ⟨group ++ before, after, by simp [List.append_assoc], .cons hitem hfirst, hentry,
            hlast⟩

/-- The last shared capacity stands on the last of its lines, size lines apart. -/
theorem Splits.lastShared {first last : List Item} {size : UInt64} (h : Splits ls split)
    (hnodup : ls.Nodup) (hitems : split.map Prod.fst = first ++ .coEditor size :: last)
    (hlast : ∀ n, .coEditor n ∉ last) : LastShared ls (sizeLines split) size.toNat := by
  obtain ⟨first, rest, rfl, rfl, hrest⟩ := List.map_eq_append_iff.1 hitems
  obtain ⟨⟨item, group⟩, last, rfl, hitem, rfl⟩ := List.map_eq_cons_iff.1 hrest
  obtain rfl : item = .coEditor size := hitem
  obtain ⟨before, after, rfl, hbefore, hentry, hafter⟩ := h.exists_of_append
  cases hentry with
  | @coEditor size l htag hsize =>
      have hsplit : before ++ [l] ++ after = before ++ l :: after := by simp
      rw [hsplit] at hnodup ⊢
      have hother : l ∉ before ++ after :=
        (List.nodup_cons.1 (List.perm_middle.nodup_iff.1 hnodup)).1
      have hsizes : sizeLines (first ++ (.coEditor size, [l]) :: last) =
          sizeLines first ++ sizeLines last := by
        rw [sizeLines_append, sizeLines_cons]
        rfl
      rw [hsizes]
      refine ⟨before, l, after, rfl, htag, fun hl => ?_, hsize, fun l' hl' htag' => ?_⟩
      · rw [List.mem_append] at hother hl
        exact hother (hl.imp hbefore.mem_of_mem_sizeLines hafter.mem_of_mem_sizeLines)
      · exact List.mem_append_right _ (hafter.mem_sizeLines_of_coEditor hlast hl' htag')

theorem Assigns.unique {value' : Nat} (h : Assigns text value) (h' : Assigns text value') :
    value = value' := by
  obtain ⟨key, rest, hkey, htext, hnumeral⟩ := h
  obtain ⟨key', rest', hkey', htext', hnumeral'⟩ := h'
  have hrest := Text.afterFirst?_eq_some_iff.2 ⟨key, hkey, htext⟩
  have hrest' := Text.afterFirst?_eq_some_iff.2 ⟨key', hkey', htext'⟩
  obtain rfl : rest = rest' := Option.some.inj (hrest.symm.trans hrest')
  rw [← Text.digits?_dropPlus_eq_some_iff] at hnumeral hnumeral'
  exact Option.some.inj (hnumeral.symm.trans hnumeral')

/-- No more than one number stands on the last line of the shared capacity. -/
theorem LastShared.unique {leftOut : List Line} {value' : Nat} (h : LastShared ls leftOut value)
    (h' : LastShared ls leftOut value') : value = value' := by
  obtain ⟨before, l, after, rfl, htag, hl, hsize, hafter⟩ := h
  obtain ⟨before', l', after', heq, htag', hl', hsize', hafter'⟩ := h'
  -- the line that stands further on is the last
  rcases List.append_eq_append_iff.1 heq with ⟨gap, rfl, hrest⟩ | ⟨gap, rfl, hrest⟩
  · cases gap with
    | nil =>
        obtain ⟨rfl, -⟩ := List.cons.inj hrest
        exact hsize.unique hsize'
    | cons e gap =>
        obtain ⟨-, rfl⟩ := List.cons.inj hrest
        exact absurd (hafter l' (by simp) htag') hl'
  · cases gap with
    | nil =>
        obtain ⟨rfl, -⟩ := List.cons.inj hrest
        exact hsize.unique hsize'
    | cons e gap =>
        obtain ⟨-, rfl⟩ := List.cons.inj hrest
        exact absurd (hafter' l (by simp) htag) hl

/-! ### Accepted texts -/

/-- A text that is accepted falls into the items of its configuration. -/
theorem exists_splits_of_read {text : String} {c : Config} (h : (read text).value = .ok c) :
    ∃ split, Splits (contentLines text.toList) split ∧ config? (split.map Prod.fst) = some c := by
  cases hscan : scan (contentLines text.toList) with
  | mk items fault? =>
      have hok : Scan.outcome ⟨items, fault?⟩ = .ok c := by
        rw [← hscan]
        exact h
      cases fault? with
      | some fault => cases hok
      | none =>
          obtain ⟨split, hsplit, hitems⟩ :=
            exists_splits trimmed_of_mem_contentLines (congrArg Scan.fault? hscan)
          refine ⟨split, hsplit, ?_⟩
          rw [hitems, hscan]
          cases hconfig : config? items with
          | none => simp [Scan.outcome, hconfig] at hok
          | some c' => simpa [Scan.outcome, hconfig] using hok

/-- No line stands twice in a text. -/
theorem nodup_contentLines (cs : List Char) : (contentLines cs).Nodup :=
  (pairwise_contentFrom 1 _).imp fun hlt heq => absurd (congrArg Line.number heq) (Nat.ne_of_lt hlt)

/-- Where the capacities of an accepted text come from.  That of a producer is the number on the
third of its lines, which mentions a queue size.  The shared capacity is the number on the last
line that begins as its line does, apart from such third lines.  So if none of these begins in
that way, it is the number on the last of all such lines. -/
theorem shared_capacity_of_last {text : String} {c : Config} (h : (read text).value = .ok c) :
    ∃ split, Splits (contentLines text.toList) split ∧
      c.producers = (split.map Prod.fst).filterMap Item.producer? ∧
      (∀ spec group, (.producer spec, group) ∈ split →
        ∃ q ∈ sizeLines split, group[2]? = some q ∧ sizeTag <:+: q.text ∧
          Assigns q.text spec.queueSize.toNat) ∧
      LastShared (contentLines text.toList) (sizeLines split) c.coEditorQueueSize.toNat ∧
      ((∀ q ∈ sizeLines split, ¬ coEditorTag <+: q.text) →
        LastShared (contentLines text.toList) [] c.coEditorQueueSize.toNat) := by
  obtain ⟨split, hsplit, hconfig⟩ := exists_splits_of_read h
  obtain ⟨first, size, last, hitems, hlast⟩ :=
    exists_last_coEditor (exists_coEditor_of_config? hconfig)
  have hc : c = .ofProducers ((split.map Prod.fst).filterMap Item.producer?) size :=
    Option.some.inj (hconfig.symm.trans (config?_eq_some hitems hlast))
  subst hc
  have hshared := hsplit.lastShared (nodup_contentLines _) hitems hlast
  refine ⟨split, hsplit, rfl, fun spec group => hsplit.size_of_producer, hshared, fun hapart => ?_⟩
  obtain ⟨before, l, after, hlines, htag, -, hsize, hafter⟩ := hshared
  exact ⟨before, l, after, hlines, htag, List.not_mem_nil, hsize,
    fun l' hl' htag' => absurd htag' (hapart l' (hafter l' hl' htag'))⟩

/-- A text in which the line of the shared capacity stands behind the number of articles of a
producer, and another such line before. -/
def misplaced : String :=
  "Co-Editor queue size = 3\nPRODUCER 1\n5\nCo-Editor queue size = 7\n"

theorem read_misplaced : (read misplaced).value = .ok (.ofProducers [⟨1, 5, 7⟩] 3) := by
  have hscan : scan (contentLines misplaced.toList) =
      ⟨[.coEditor 3, .producer ⟨1, 5, 7⟩], none⟩ := by
    decide +kernel
  exact congrArg Logged.value (read_eq_ok hscan rfl)

/-- There the shared capacity does not come from the last line that begins as its line does. -/
theorem shared_capacity_of_last_misplaced :
    (read misplaced).value = .ok (.ofProducers [⟨1, 5, 7⟩] 3) ∧
    ∃ split, Splits (contentLines misplaced.toList) split ∧
      LastShared (contentLines misplaced.toList) (sizeLines split) 3 := by
  obtain ⟨split, hsplit, -, -, hshared, -⟩ := shared_capacity_of_last read_misplaced
  exact ⟨read_misplaced, split, hsplit, hshared⟩

/-- A producer whose size line is missing takes the line of the shared capacity that follows for
its own: the text is accepted, and the last such line does not give the shared capacity. -/
theorem shared_line_taken_for_size :
    (read misplaced).value = .ok (.ofProducers [⟨1, 5, 7⟩] 3) ∧
    LastShared (contentLines misplaced.toList) [] 7 ∧
    ¬ LastShared (contentLines misplaced.toList) [] 3 := by
  have hblank : Text.AllBlank [' '] := by decide
  have hlines : contentLines misplaced.toList = (contentLines misplaced.toList).take 3 ++
      [⟨4, assignment coEditorTag [' '] [' '] 7⟩] := by
    decide +kernel
  have hseven : LastShared (contentLines misplaced.toList) [] 7 :=
    ⟨_, _, [], hlines, key_prefix_assignment _ _ _ _, List.not_mem_nil,
      assigns_assignment (by decide) hblank hblank 7, fun l' hl' => absurd hl' List.not_mem_nil⟩
  refine ⟨read_misplaced, hseven, fun hthree => ?_⟩
  exact absurd (hseven.unique hthree) (by decide)

end Newsroom.Descriptor

import Newsroom.Config.Basic
import Newsroom.Text.Blank
import Newsroom.Text.Numeral
import Newsroom.Text.Search

/-!
# Descriptors

The plain text form of a configuration.  It is made of items: a producer takes
three lines, the shared capacity one, and every other line is a note.

    PRODUCER 1
    30
    queue size = 5

    Co-Editor queue size = 17

## Main Definitions

* `Descriptor.contentLines` — the trimmed, non-blank lines with their numbers
* `Descriptor.Heading` — what the first line of an item announces
* `Descriptor.scan` — the items of a descriptor, up to the first faulty line
* `Descriptor.read` — the configuration of a descriptor

## Design Notes

A scan keeps the items before a faulty line, so that notes are reported whether
or not the descriptor turns out to be faulty.  If the shared capacity is given
more than once, the last one counts.
-/

namespace Newsroom.Descriptor

/-! ### Lines -/

/-- A trimmed line with its number, counted from one. -/
structure Line where
  number : Nat
  text : List Char
  deriving DecidableEq, Repr

/-- The trimmed, non-blank lines among those of a text, which is numbered from
`n`. -/
def contentFrom (n : Nat) : List (List Char) → List Line
  | [] => []
  | l :: ls =>
      let text := Text.trim l
      if text.isEmpty then contentFrom (n + 1) ls else ⟨n, text⟩ :: contentFrom (n + 1) ls

/-- The trimmed, non-blank lines of a text. -/
def contentLines (cs : List Char) : List Line :=
  contentFrom 1 (Text.lines cs)

/-! ### The parts of an item -/

/-- How a producer begins. -/
def producerTag : List Char := "PRODUCER".toList

/-- How the line of the shared capacity begins. -/
def coEditorTag : List Char := "Co-Editor queue size".toList

/-- What the line of a queue size mentions. -/
def sizeTag : List Char := "queue size".toList

/-- A numeral of a 64-bit word, with the fault that reports any other text. -/
def number (fault : String → DescriptorFault) (raw : List Char) :
    Except DescriptorFault UInt64 :=
  match Text.word64? raw with
  | some n => .ok n
  | none => .error (fault (String.ofList raw))

/-- The number behind the first `=` of a line. -/
def assigned (shape : DescriptorFault) (fault : String → DescriptorFault) (text : List Char) :
    Except DescriptorFault UInt64 :=
  match Text.afterFirst? '=' text with
  | some value => number fault (Text.trim value)
  | none => .error shape

/-- The number of a producer: the second of exactly two words. -/
def producerId (text : List Char) : Except DescriptorFault UInt32 :=
  match Text.words text with
  | [tag, id] =>
      if tag = producerTag then
        match Text.word32? id with
        | some n => .ok n
        | none => .error (.producerId (String.ofList id))
      else .error .producerLine
  | _ => .error .producerLine

/-- How many articles a producer writes. -/
def messageCount (text : List Char) : Except DescriptorFault UInt64 :=
  number .count text

/-- The capacity of the queue of a producer. -/
def queueSize (text : List Char) : Except DescriptorFault UInt64 :=
  if Text.occursIn sizeTag text then assigned .sizeLine .size text else .error .sizeLine

/-- The shared capacity. -/
def coEditorSize (text : List Char) : Except DescriptorFault UInt64 :=
  assigned .coEditorLine .coEditorSize text

/-! ### Items -/

/-- What the first line of an item announces. -/
inductive Heading where
  | producer (id : Except DescriptorFault UInt32)
  | coEditor (size : Except DescriptorFault UInt64)
  | note

/-- What a line announces where an item may begin. -/
def heading (text : List Char) : Heading :=
  if producerTag.isPrefixOf text then .producer (producerId text)
  else if coEditorTag.isPrefixOf text then .coEditor (coEditorSize text)
  else .note

/-- An item of a descriptor. -/
inductive Item where
  | producer (spec : ProducerSpec)
  | coEditor (size : UInt64)
  | note (line : Line)
  deriving DecidableEq, Repr

/-- A faulty line. -/
structure Fault where
  line : Nat
  fault : DescriptorFault
  deriving DecidableEq, Repr

/-- The items of a descriptor before its first faulty line, if there is one. -/
structure Scan where
  items : List Item
  fault? : Option Fault
  deriving DecidableEq, Repr

/-- A scan that stops at a line. -/
def Scan.stop (line : Line) (fault : DescriptorFault) : Scan :=
  ⟨[], some ⟨line.number, fault⟩⟩

/-- A scan with another item in front. -/
def Scan.cons (item : Item) (s : Scan) : Scan :=
  { s with items := item :: s.items }

/-- The items of the content lines of a descriptor. -/
def scan : List Line → Scan
  | [] => ⟨[], none⟩
  | l :: ls =>
      match heading l.text with
      | .note => (scan ls).cons (.note l)
      | .coEditor (.error f) => .stop l f
      | .coEditor (.ok n) => (scan ls).cons (.coEditor n)
      | .producer (.error f) => .stop l f
      | .producer (.ok id) =>
          match ls with
          | [] => .stop l (.missingCount id)
          | c :: ls =>
              match messageCount c.text with
              | .error f => .stop c f
              | .ok messages =>
                  match ls with
                  | [] => .stop c (.missingSize id)
                  | q :: ls =>
                      match queueSize q.text with
                      | .error f => .stop q f
                      | .ok size => (scan ls).cons (.producer ⟨id, messages, size⟩)

/-- The producer of an item. -/
def Item.producer? : Item → Option ProducerSpec
  | producer spec => some spec
  | _ => none

/-- The shared capacity of an item. -/
def Item.coEditor? : Item → Option UInt64
  | coEditor size => some size
  | _ => none

/-- The report of an item that says nothing. -/
def Item.event? : Item → Option Event
  | note line => some (.ignoredLine line.number (String.ofList line.text))
  | _ => none

/-- The configuration that items describe: all their producers and the last
shared capacity. -/
def config? (items : List Item) : Option Config :=
  (items.filterMap Item.coEditor?).getLast?.map
    (Config.ofProducers (items.filterMap Item.producer?))

/-- The outcome of a scan. -/
def Scan.outcome (s : Scan) : Outcome Config :=
  match s.fault? with
  | some ⟨line, fault⟩ => .error (.parse line fault)
  | none =>
      match config? s.items with
      | some c => .ok c
      | none => .error (.config .missingCoEditor)

/-- The configuration that a descriptor describes, with its notes. -/
def read (text : String) : Logged (Outcome Config) :=
  let s := scan (contentLines text.toList)
  ⟨s.outcome, s.items.filterMap Item.event?⟩

end Newsroom.Descriptor

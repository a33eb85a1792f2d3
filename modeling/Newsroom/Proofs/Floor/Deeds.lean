import Newsroom.Proofs.Dispatch.Turns
import Newsroom.Proofs.Floor.Step

/-!
# The deeds of the dispatcher of a floor

A step of the dispatcher on a floor, as what it sees and does.

## Main Definitions

* `Floor.items` — the messages in the sources
* `Floor.Puts` — a message at the end of the queue of a category, or none

## Main Statements

* `Step.does` — a step of the dispatcher is a deed, and what this does to the queues
-/

namespace Newsroom.Floor

open Dispatcher (Deed Does Finds)

variable {ρ α : Type}

/-- The messages in the sources of a floor. -/
def items (f : Floor ρ α) : List (List (Message α)) := f.sources.map Queue.items

/-- What becomes of the queues of the categories when a message is put into one of them. -/
def Puts (categories categories' : ByCategory (Queue (Message α))) :
    Option (Category × Message α) → Prop
  | none => categories' = categories
  | some (c, m) => ∃ r, (categories.get c).insert? m = some r ∧ categories' = categories.set c r

theorem items_getElem? {f : Floor ρ α} {i : Nat} {q : Queue (Message α)}
    (hq : f.sources[i]? = some q) : f.items[i]? = some q.items := by
  rw [items, List.getElem?_map, hq, Option.map_some]

/-- A source from which a message is taken. -/
theorem items_take {f : Floor ρ α} {i : Nat} {q r : Queue (Message α)} {m : Message α}
    (hq : f.sources[i]? = some q) (hm : q.remove? = some (m, r)) :
    f.items[i]? = some (m :: r.items) ∧
      (f.sources.set i r).map Queue.items = f.items.set i r.items ∧
      (f.sources.set i r).map Queue.name = f.sources.map Queue.name := by
  obtain ⟨hitems, -, hname⟩ := Queue.items_remove? hm
  exact ⟨by rw [items_getElem? hq, hitems], by rw [List.map_set, items], map_set_of_eq hq hname⟩

variable [CategorySource ρ] [Payload α] {sink : Sink} {f f' : Floor ρ α}

/-- A step of the dispatcher is one of its deeds, and does this to the queues. -/
theorem Step.does {names : Nat → String}
    (hnames : ∀ (i : Nat) (q : Queue (Message α)), f.sources[i]? = some q → q.name = names i)
    (hstep : Step sink f .dispatcher f') :
    ∃ deed es, Does names f.dispatcher deed f'.dispatcher es ∧ f'.events = f.events ++ es ∧
      Finds f.items f'.items deed ∧ f'.sources.map Queue.name = f.sources.map Queue.name ∧
      Puts f.categories f'.categories deed.putting? := by
  cases hstep with
  | @miss i q hphase hq hempty =>
      exact ⟨.missed i, [], .miss hphase, (List.append_nil _).symm,
        ⟨by rw [items_getElem? hq, hempty], rfl⟩, rfl, rfl⟩
  | @takeDone i q r hphase hq hm =>
      obtain ⟨hi, hitems, hkept⟩ := items_take hq hm
      refine ⟨.took i .done, _, .take .done hphase, ?_, ⟨r.items, hi, hitems⟩, hkept, rfl⟩
      rw [hnames i q hq]
  | @takeItem i q r body c hphase hq hm hc =>
      obtain ⟨hi, hitems, hkept⟩ := items_take hq hm
      have hdoes : Does names f.dispatcher (.took i (.item body)) _ _ := .take (.item body) hphase
      rw [Dispatcher.polled, hc] at hdoes
      exact ⟨_, _, hdoes, (List.append_nil _).symm, ⟨r.items, hi, hitems⟩, hkept, rfl⟩
  | @drop i q r body hphase hq hm hc =>
      obtain ⟨hi, hitems, hkept⟩ := items_take hq hm
      have hdoes : Does names f.dispatcher (.took i (.item body)) _ _ := .take (.item body) hphase
      rw [Dispatcher.polled, hc] at hdoes
      exact ⟨_, _, hdoes, rfl, ⟨r.items, hi, hitems⟩, hkept, rfl⟩
  | @route i c body r hphase hroom =>
      exact ⟨.routed i c body, [], .route hphase, (List.append_nil _).symm, rfl, rfl, r, hroom, rfl⟩
  | @check i q hphase hq =>
      exact ⟨.checked i q.isEmpty, [], .check q.isEmpty hphase, (List.append_nil _).symm,
        ⟨⟨q.items, items_getElem? hq, rfl⟩, rfl⟩, rfl, rfl⟩
  | @close c cs r hphase hroom =>
      exact ⟨.closed c, _, .close hphase, rfl, rfl, rfl, r, hroom, rfl⟩

end Newsroom.Floor

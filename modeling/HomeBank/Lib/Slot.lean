import Mathlib.Data.Multiset.AddSub

/-! A value that responses overwrite. Requests are sent for keys and answered in any order. An
answer replaces the value held, whatever key it was for; a failure leaves it. -/

structure Slot (κ β : Type*) where
  held : β
  /-- the keys of the requests that have had no response -/
  inFlight : Multiset κ

namespace Slot

variable {κ β ε : Type*} {answer : κ → Except ε β} {slot slot' : Slot κ β} {key k : κ}
  {response : Except ε β}

def request (key : κ) (slot : Slot κ β) : Slot κ β :=
  { slot with inFlight := key ::ₘ slot.inFlight }

/-- A response that is not counted among the requests in flight. -/
def receive (response : Except ε β) (slot : Slot κ β) : Slot κ β :=
  match response with
  | .ok held => { slot with held }
  | .error _ => slot

/-- The response to a request for `key`, which is over with it. -/
def deliver [DecidableEq κ] (key : κ) (response : Except ε β) (slot : Slot κ β) :
    Option (Slot κ β) :=
  if key ∈ slot.inFlight then
    some (receive response { slot with inFlight := slot.inFlight.erase key })
  else none

@[simp] theorem inFlight_receive : (slot.receive response).inFlight = slot.inFlight := by
  cases response <;> rfl

def Holds (answer : κ → Except ε β) (key : κ) (slot : Slot κ β) : Prop :=
  answer key = .ok slot.held

instance [DecidableEq (Except ε β)] : Decidable (slot.Holds answer key) :=
  inferInstanceAs (Decidable (_ = _))

/-- The value of `key` is held, or a request for it is still to be answered. -/
def Settles (answer : κ → Except ε β) (key : κ) (slot : Slot κ β) : Prop :=
  slot.Holds answer key ∨ key ∈ slot.inFlight

instance [DecidableEq κ] [DecidableEq (Except ε β)] : Decidable (slot.Settles answer key) :=
  inferInstanceAs (Decidable (_ ∨ _))

/-- The response brings the value of `key`, or it brings none and finds that value held. -/
def Suits (answer : κ → Except ε β) (key : κ) (slot : Slot κ β) : Except ε β → Prop
  | .ok held => answer key = .ok held
  | .error _ => slot.Holds answer key

instance [DecidableEq (Except ε β)] :
    ∀ response : Except ε β, Decidable (slot.Suits answer key response)
  | .ok _ => inferInstanceAs (Decidable (_ = _))
  | .error _ => inferInstanceAs (Decidable (slot.Holds answer key))

theorem Suits.holds (h : slot.Suits answer key response) :
    (slot.receive response).Holds answer key := by
  cases response with
  | ok held => exact h
  | error e => exact h

theorem settles_request : (slot.request key).Settles answer key :=
  .inr (Multiset.mem_cons_self key slot.inFlight)

/-- A response that does not suit does no harm as long as one for the key is to come. -/
theorem settles_receive (h : slot.Suits answer key response ∨ key ∈ slot.inFlight) :
    (slot.receive response).Settles answer key := by
  rcases h with hsuits | hmem
  · exact .inl hsuits.holds
  · exact .inr (by rwa [inFlight_receive])

/-- Or as long as a request for the key is sure to be sent. -/
theorem settles_deliver [DecidableEq κ] (h : slot.deliver k response = some slot') {sent : Prop}
    (hkey : slot.Suits answer key response ∨ key ∈ slot.inFlight.erase k ∨ sent) :
    slot'.Settles answer key ∨ sent := by
  obtain ⟨-, ⟨⟩⟩ := Option.ite_none_right_eq_some.1 h
  rw [← or_assoc] at hkey
  refine hkey.imp_left fun hkey => settles_receive (hkey.imp_left fun hsuits => ?_)
  cases response with
  | ok held => exact hsuits
  | error e => exact hsuits

theorem Settles.holds (h : slot.Settles answer key) (hnone : slot.inFlight = 0) :
    slot.Holds answer key := by
  rcases h with hheld | hmem
  · exact hheld
  · rw [hnone] at hmem
    exact absurd hmem (Multiset.notMem_zero key)

end Slot

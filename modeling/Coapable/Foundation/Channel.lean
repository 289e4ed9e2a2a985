import Mathlib.Data.List.Basic

/-!
# Bounded channels

A bounded first-in first-out channel, as a sender and a receiver see it.  A
send on a full channel and a receive on an empty one wait: the operation
answers `none` and can be tried again in a later state.  That a channel never
holds more than its capacity is a field of the structure.
-/

namespace Coapable.Foundation

/-- A queue of at most `capacity` items, oldest first. -/
structure Channel (Item : Type) (capacity : Nat) where
  items : List Item
  bounded : items.length ≤ capacity
  deriving DecidableEq

namespace Channel

variable {Item : Type} {capacity : Nat}

/-- A channel as it is created. -/
def empty : Channel Item capacity where
  items := []
  bounded := Nat.zero_le capacity

/-- A sender waits. -/
def Full (channel : Channel Item capacity) : Prop :=
  channel.items.length = capacity

instance (channel : Channel Item capacity) : Decidable channel.Full :=
  inferInstanceAs (Decidable (_ = _))

/-- How many sends complete before a sender waits. -/
def room (channel : Channel Item capacity) : Nat :=
  capacity - channel.items.length

/-- The item goes to the end of the queue, `none` while a sender waits. -/
def send (channel : Channel Item capacity) (item : Item) :
    Option (Channel Item capacity) :=
  if free : channel.items.length < capacity then
    some {
      items := channel.items ++ [item]
      bounded := by
        rw [List.length_append]
        exact free }
  else none

/-- The oldest item leaves the queue, `none` while a receiver waits. -/
def receive (channel : Channel Item capacity) :
    Option (Item × Channel Item capacity) :=
  match channel with
  | ⟨[], _⟩ => none
  | ⟨item :: rest, bounded⟩ =>
      some (item, ⟨rest, Nat.le_of_succ_le bounded⟩)

theorem not_full_iff (channel : Channel Item capacity) :
    ¬channel.Full ↔ channel.items.length < capacity :=
  ⟨Nat.lt_of_le_of_ne channel.bounded, Nat.ne_of_lt⟩

/-- A send waits exactly while the channel is full. -/
theorem send_eq_none_iff (channel : Channel Item capacity) (item : Item) :
    channel.send item = none ↔ channel.Full := by
  rw [← not_iff_not, not_full_iff]
  simp [send]

/-- What a completed send did. -/
theorem send_eq_some
    {channel after : Channel Item capacity} {item : Item}
    (sent : channel.send item = some after) :
    ¬channel.Full ∧ after.items = channel.items ++ [item] := by
  simp only [send] at sent
  split at sent
  · next free =>
      injection sent with equal
      subst equal
      exact ⟨channel.not_full_iff.mpr free, rfl⟩
  · cases sent

theorem room_of_send
    {channel after : Channel Item capacity} {item : Item}
    (sent : channel.send item = some after) :
    after.room + 1 = channel.room := by
  rcases send_eq_some sent with ⟨notFull, items⟩
  have free := channel.not_full_iff.mp notFull
  simp only [room, items, List.length_append, List.length_singleton]
  omega

theorem exists_send
    {channel : Channel Item capacity} (notFull : ¬channel.Full)
    (item : Item) :
    ∃ after, channel.send item = some after :=
  Option.ne_none_iff_exists'.mp fun waits =>
    notFull ((channel.send_eq_none_iff item).mp waits)

/-- A receive takes the oldest item. -/
theorem receive_eq_some_iff
    {channel after : Channel Item capacity} {item : Item} :
    channel.receive = some (item, after) ↔
      channel.items = item :: after.items := by
  rcases channel with ⟨items, bounded⟩
  rcases after with ⟨afterItems, afterBounded⟩
  cases items with
  | nil => simp [receive]
  | cons head rest => simp [receive]

/-- A receive completes while something is left. -/
theorem exists_receive
    {channel : Channel Item capacity} {item : Item} {rest : List Item}
    (items : channel.items = item :: rest) :
    ∃ after, channel.receive = some (item, after) ∧ after.items = rest := by
  have shorter : rest.length ≤ capacity := by
    have bounded := channel.bounded
    rw [items] at bounded
    exact Nat.le_of_succ_le bounded
  exact ⟨⟨rest, shorter⟩, receive_eq_some_iff.mpr items, rfl⟩

/-- A receive from a full channel completes. -/
theorem exists_receive_of_full
    {channel : Channel Item capacity}
    (positive : 0 < capacity) (full : channel.Full) :
    ∃ item after, channel.receive = some (item, after) := by
  have items : channel.items ≠ [] := by
    rw [← List.length_pos_iff, full]
    exact positive
  rcases List.exists_cons_of_ne_nil items with ⟨item, rest, items⟩
  rcases exists_receive items with ⟨after, received, _⟩
  exact ⟨item, after, received⟩

theorem not_full_of_receive
    {channel after : Channel Item capacity} {item : Item}
    (received : channel.receive = some (item, after)) :
    ¬after.Full := by
  rw [not_full_iff]
  calc after.items.length
      < channel.items.length := by
        rw [receive_eq_some_iff.mp received]
        exact Nat.lt_succ_self after.items.length
    _ ≤ capacity := channel.bounded

end Channel

end Coapable.Foundation

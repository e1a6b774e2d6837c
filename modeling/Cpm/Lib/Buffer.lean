import Mathlib.Data.List.Basic

/-! Writing into a buffer. A write that does not stay inside has no result. -/
namespace Lib.Buffer

variable {α : Type*}

def write (buffer : List α) (place : Nat) (data : List α) : Option (List α) :=
  if place + data.length ≤ buffer.length then
    some (buffer.take place ++ (data ++ buffer.drop (place + data.length)))
  else none

section
variable {buffer after data : List α} {place : Nat}

theorem write_inside (room : place + data.length ≤ buffer.length) :
    write buffer place data =
      some (buffer.take place ++ (data ++ buffer.drop (place + data.length))) :=
  if_pos room

theorem write_some (wrote : write buffer place data = some after) :
    place + data.length ≤ buffer.length ∧
      after = buffer.take place ++ (data ++ buffer.drop (place + data.length)) := by
  obtain ⟨room, same⟩ := Option.ite_none_right_eq_some.mp wrote
  exact ⟨room, (Option.some.inj same).symm⟩

theorem write_length (wrote : write buffer place data = some after) :
    after.length = buffer.length := by
  obtain ⟨room, rfl⟩ := write_some wrote
  simp only [List.length_append, List.length_take, List.length_drop]
  omega

theorem write_front (wrote : write buffer place data = some after) {n : Nat} (before : n ≤ place) :
    after.take n = buffer.take n := by
  obtain ⟨room, rfl⟩ := write_some wrote
  rw [List.take_append_of_le_length (by rw [List.length_take]; omega), List.take_take,
    Nat.min_eq_left before]

theorem write_written (wrote : write buffer place data = some after) :
    after.take (place + data.length) = buffer.take place ++ data := by
  obtain ⟨room, rfl⟩ := write_some wrote
  rw [← List.append_assoc, List.take_left']
  rw [List.length_append, List.length_take, Nat.min_eq_left (by omega)]

theorem write_behind (wrote : write buffer place data = some after) {n : Nat}
    (behind : place + data.length ≤ n) : after[n]? = buffer[n]? := by
  obtain ⟨room, rfl⟩ := write_some wrote
  rw [List.getElem?_append_right (by rw [List.length_take]; omega),
    List.getElem?_append_right (by rw [List.length_take]; omega), List.getElem?_drop]
  congr 1
  rw [List.length_take]
  omega

theorem write_append (front old rest : List α) {data : List α} (same : old.length = data.length) :
    write (front ++ (old ++ rest)) front.length data = some (front ++ (data ++ rest)) := by
  have room : front.length + data.length ≤ (front ++ (old ++ rest)).length := by
    simp only [List.length_append]
    omega
  rw [write_inside room, List.take_left, ← same, ← List.drop_drop, List.drop_left, List.drop_left]

end

end Lib.Buffer

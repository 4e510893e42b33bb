import Mathlib.Data.List.DropRight

/-!
# Runs at the ends of a list

A run of elements with a property, followed by something that does not go on
with it, is what `takeWhile` takes and `dropWhile` leaves out.  Behind something
that does not end in the property, it is what `rtakeWhile` takes and
`rdropWhile` leaves out.
-/

namespace AmountPad

variable {α : Type} {p : α → Bool} {front run rest : List α}

theorem takeWhile_append_of_ends (inside : ∀ a ∈ run, p a = true)
    (ends : ∀ a ∈ rest.head?, p a = false) : (run ++ rest).takeWhile p = run := by
  rw [List.takeWhile_append_of_pos inside]
  cases rest with
  | nil => simp
  | cons first rest => simp [ends first rfl]

theorem dropWhile_append_of_ends (inside : ∀ a ∈ run, p a = true)
    (ends : ∀ a ∈ rest.head?, p a = false) : (run ++ rest).dropWhile p = rest := by
  rw [List.dropWhile_append_of_pos inside]
  cases rest with
  | nil => rfl
  | cons first rest => simp [ends first rfl]

theorem rtakeWhile_append_of_ends (inside : ∀ a ∈ run, p a = true)
    (ends : ∀ a ∈ front.getLast?, p a = false) : (front ++ run).rtakeWhile p = run := by
  rw [← List.head?_reverse] at ends
  rw [List.rtakeWhile, List.reverse_append,
    takeWhile_append_of_ends (by simpa using inside) ends, List.reverse_reverse]

theorem rdropWhile_append_of_ends (inside : ∀ a ∈ run, p a = true)
    (ends : ∀ a ∈ front.getLast?, p a = false) : (front ++ run).rdropWhile p = front := by
  rw [← List.head?_reverse] at ends
  rw [List.rdropWhile, List.reverse_append,
    dropWhile_append_of_ends (by simpa using inside) ends, List.reverse_reverse]

end AmountPad

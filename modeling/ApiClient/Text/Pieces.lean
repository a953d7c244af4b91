/-!
# ApiClient.Text.Pieces

Texts cut into pieces.

Design points:

* There is one piece more than there are separators, so a text without a separator is its only piece
  and the empty text is one empty piece.
-/

namespace ApiClient.Pieces

/-- The pieces of a text between the characters equal to `separator`. -/
def cut (separator : Char) : List Char → List (List Char)
  | [] => [[]]
  | c :: rest =>
    if c == separator then [] :: cut separator rest
    else match cut separator rest with
      | piece :: pieces => (c :: piece) :: pieces
      | [] => [[c]]

theorem cut_ne_nil (separator : Char) (s : List Char) : cut separator s ≠ [] := by
  cases s with
  | nil => simp [cut]
  | cons c rest =>
    rw [cut]
    split
    · simp
    · split <;> simp

/-- A piece has characters of the text only. -/
theorem mem_of_mem_cut {separator : Char} {s piece : List Char} (h : piece ∈ cut separator s) :
    ∀ c ∈ piece, c ∈ s := by
  induction s generalizing piece with
  | nil =>
      obtain rfl := List.mem_singleton.1 h
      simp
  | cons d rest ih =>
      rw [cut] at h
      split at h
      · rcases List.mem_cons.1 h with rfl | h
        · simp
        · exact fun c hc => List.mem_cons_of_mem _ (ih h c hc)
      · obtain ⟨first, pieces, hcut⟩ := List.exists_cons_of_ne_nil (cut_ne_nil separator rest)
        rw [hcut] at h ih
        rcases List.mem_cons.1 h with rfl | h
        · intro c hc
          rcases List.mem_cons.1 hc with rfl | hc
          · exact List.mem_cons_self
          · exact List.mem_cons_of_mem _ (ih List.mem_cons_self c hc)
        · exact fun c hc => List.mem_cons_of_mem _ (ih (List.mem_cons_of_mem _ h) c hc)

end ApiClient.Pieces

import NetRedact.Text.Units
import Mathlib.Data.List.Basic

/-!
# Byte offsets

Byte lengths add up along a text, every character takes at least one byte, and cutting a text at the
byte length of its front gives that front back.  So a byte offset that belongs to a cut of a text
belongs to one cut only.
-/

namespace NetRedact.Text

private theorem foldl_size (cs : List Char) (n : Nat) :
    cs.foldl (fun n c => n + c.utf8Size) n = n + cs.foldl (fun n c => n + c.utf8Size) 0 := by
  induction cs generalizing n with
  | nil => simp
  | cons c cs ih =>
      rw [List.foldl_cons, List.foldl_cons, ih, ih (0 + c.utf8Size)]
      omega

@[simp] theorem byteLength_nil : byteLength [] = 0 := rfl

@[simp] theorem byteLength_cons (c : Char) (cs : List Char) :
    byteLength (c :: cs) = c.utf8Size + byteLength cs := by
  unfold byteLength
  rw [List.foldl_cons, foldl_size]
  omega

@[simp] theorem byteLength_append (xs ys : List Char) :
    byteLength (xs ++ ys) = byteLength xs + byteLength ys := by
  induction xs with
  | nil => simp
  | cons c xs ih => simp [ih, Nat.add_assoc]

@[simp] theorem byteLength_reverse (cs : List Char) : byteLength cs.reverse = byteLength cs := by
  induction cs with
  | nil => rfl
  | cons c cs ih => simp [ih, Nat.add_comm]

theorem byteLength_pos {cs : List Char} (h : cs ≠ []) : 0 < byteLength cs := by
  cases cs with
  | nil => exact absurd rfl h
  | cons c cs =>
      have := c.utf8Size_pos
      simp only [byteLength_cons]
      omega

private theorem splitBytesAfter_append (taken front rest : List Char) :
    splitBytesAfter taken (byteLength front) (front ++ rest) = (taken.reverse ++ front, rest) := by
  induction front generalizing taken with
  | nil =>
      cases rest with
      | nil => simp [splitBytesAfter]
      | cons c rest =>
          have hsize : ¬ c.utf8Size ≤ 0 := by have := c.utf8Size_pos; omega
          simp [splitBytesAfter, hsize]
  | cons c front ih =>
      simp only [List.cons_append, splitBytesAfter, byteLength_cons]
      rw [if_pos (Nat.le_add_right _ _), Nat.add_sub_cancel_left, ih]
      simp

/-- Cutting at the byte length of the front cuts off the front. -/
theorem splitBytes_append (front rest : List Char) :
    splitBytes (byteLength front) (front ++ rest) = (front, rest) := by
  simp [splitBytes, splitBytesAfter_append]

/-- Of two cuts of one text the one at the smaller offset lies in the front of the other. -/
theorem append_eq_append_of_byteLength_le {front rest front' rest' : List Char}
    (h : front ++ rest = front' ++ rest') (hle : byteLength front ≤ byteLength front') :
    ∃ middle, front' = front ++ middle ∧ rest = middle ++ rest' := by
  rcases List.append_eq_append_iff.mp h with ⟨middle, hfront, hrest⟩ | ⟨middle, hfront, hrest⟩
  · exact ⟨middle, hfront, hrest⟩
  · have hempty : middle = [] := by
      by_contra hne
      have := byteLength_pos hne
      rw [hfront, byteLength_append] at hle
      omega
    subst hempty
    exact ⟨[], by simpa using hfront.symm, by simpa using hrest.symm⟩

/-- A cut of a text is determined by its offset. -/
theorem append_inj_of_byteLength_eq {front rest front' rest' : List Char}
    (h : front ++ rest = front' ++ rest') (heq : byteLength front = byteLength front') :
    front = front' ∧ rest = rest' := by
  obtain ⟨middle, hfront, hrest⟩ := append_eq_append_of_byteLength_le h (Nat.le_of_eq heq)
  have hempty : middle = [] := by
    by_contra hne
    have := byteLength_pos hne
    rw [hfront, byteLength_append] at heq
    omega
  subst hempty
  exact ⟨by simpa using hfront.symm, by simpa using hrest⟩

end NetRedact.Text

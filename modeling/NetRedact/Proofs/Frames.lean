import NetRedact.Surrogate
import Mathlib.Tactic.Ring

/-!
# Framed fields

What is digested for an address is one row of bytes: the salt, the tag of the kind and the octets, each
behind its length.  A frame can be told from whatever follows it, so the row falls apart into its fields
in one way only.  The main statement is that the salt, the kind and the octets can be read off the row,
and that nothing else of the address enters it.  It holds for salts whose length fits the four bytes of
the frame; a longer one is framed as if it were the longest that fits.
-/

namespace NetRedact

open NetRedact.Text Hash.Sha256

/-! ## Lengths in bytes -/

/-- The number that bytes give, most significant first, behind what is read already. -/
def ofBigEndian (front : Nat) (bytes : List UInt8) : Nat :=
  bytes.foldl (fun n b => 256 * n + b.toNat) front

theorem bigEndian_succ (width n : Nat) :
    bigEndian (width + 1) n = UInt8.ofNat (n >>> (8 * width)) :: bigEndian width n := by
  simp only [bigEndian, List.range_succ_eq_map, List.map_cons, List.map_map, List.cons.injEq]
  refine ⟨by simp, List.map_congr_left ?_⟩
  intro i _
  simp only [Function.comp_apply, Nat.succ_eq_add_one]
  congr 3
  omega

@[simp] theorem length_bigEndian (width n : Nat) : (bigEndian width n).length = width := by
  simp [bigEndian]

/-- Bytes give the number that they were made from, up to what they have no room for. -/
theorem ofBigEndian_bigEndian (front width n : Nat) :
    ofBigEndian front (bigEndian width n) = front * 256 ^ width + n % 256 ^ width := by
  induction width generalizing front with
  | zero => simp [bigEndian, ofBigEndian, Nat.mod_one]
  | succ width ih =>
      have hbyte : (UInt8.ofNat (n >>> (8 * width))).toNat = n / 256 ^ width % 256 := by
        rw [UInt8.toNat_ofNat', Nat.shiftRight_eq_div_pow, Nat.pow_mul]
      have hfold : ofBigEndian front (bigEndian (width + 1) n) =
          ofBigEndian (256 * front + n / 256 ^ width % 256) (bigEndian width n) := by
        rw [bigEndian_succ, ofBigEndian, List.foldl_cons, hbyte]
        rfl
      rw [hfold, ih, Nat.mod_pow_succ, Nat.pow_succ]
      ring

/-- Numbers that have room are told apart by their bytes. -/
theorem bigEndian_inj {width n n' : Nat} (hn : n < 256 ^ width) (hn' : n' < 256 ^ width)
    (h : bigEndian width n = bigEndian width n') : n = n' := by
  have hread := congrArg (ofBigEndian 0) h
  rw [ofBigEndian_bigEndian, ofBigEndian_bigEndian, Nat.mod_eq_of_lt hn, Nat.mod_eq_of_lt hn'] at hread
  simpa using hread

/-! ## Frames -/

/-- A field behind its length ends where its length says, whatever comes behind it. -/
theorem frame_append_inj {field field' rest rest' : List UInt8} (hfield : field.length < 2 ^ 32)
    (hfield' : field'.length < 2 ^ 32) (h : frame field ++ rest = frame field' ++ rest') :
    field = field' ∧ rest = rest' := by
  rw [frame, frame, List.append_assoc, List.append_assoc] at h
  obtain ⟨hlengths, hbehind⟩ := List.append_inj h (by simp)
  have hlength : field.length = field'.length := by
    have heq := bigEndian_inj (by omega) (by omega) hlengths
    omega
  exact List.append_inj hbehind hlength

theorem length_bytes_le (address : Address) : address.bytes.length ≤ 16 := by
  cases address <;> simp [Address.bytes]

/-- The tags of kinds are short, and no two kinds have the same one. -/
theorem length_utf8_label_le (kind : AddressKind) : (utf8 kind.label.toList).length ≤ 4 := by
  cases kind <;> decide

theorem utf8_label_inj {kind kind' : AddressKind}
    (h : utf8 kind.label.toList = utf8 kind'.label.toList) : kind = kind' := by
  revert h
  cases kind <;> cases kind' <;> decide

/-- Behind one salt, whatever its length, the bytes tell kinds and octets apart. -/
theorem digestInput_eq_iff_of_salt (salt : Salt) (address address' : Address) :
    digestInput salt address = digestInput salt address' ↔
      address.kind = address'.kind ∧ address.bytes = address'.bytes := by
  constructor
  · intro h
    rw [digestInput, digestInput, List.append_assoc, List.append_assoc] at h
    have hbehind := List.append_cancel_left h
    have hshort (kind : AddressKind) : (utf8 kind.label.toList).length < 2 ^ 32 :=
      Nat.lt_of_le_of_lt (length_utf8_label_le kind) (by decide)
    have hshort' (address : Address) : address.bytes.length < 2 ^ 32 :=
      Nat.lt_of_le_of_lt (length_bytes_le address) (by decide)
    obtain ⟨hlabel, hframe⟩ := frame_append_inj (hshort _) (hshort _) hbehind
    have hlast : frame address.bytes ++ [] = frame address'.bytes ++ [] := congrArg (· ++ []) hframe
    exact ⟨utf8_label_inj hlabel, (frame_append_inj (hshort' _) (hshort' _) hlast).1⟩
  · rintro ⟨hkind, hbytes⟩
    rw [digestInput, digestInput, hkind, hbytes]

end NetRedact

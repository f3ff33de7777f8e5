import NetRedact.Proofs.Overhang
import NetRedact.Proofs.Skeletons
import NetRedact.Proofs.WrittenLiterals
import Mathlib.Data.FinEnum
import Mathlib.Data.Fintype.BigOperators
import Mathlib.SetTheory.Cardinal.Finite

/-!
# Texts that are one literal

A text may be one literal from its first byte to its last.  Where the scan reports it as a whole there
is no room for anything else, so it is the only candidate.  Surrogates are such texts: writing octets
in the shape of an address is undone by the scan, which finds the surrogate as a whole, in the kind
and the layout it was written in, and with the octets it was written from.  So surrogates of one shape
are equal exactly if their octets are, and each of them is drawn equally often.
-/

namespace NetRedact

open NetRedact.Text NetRedact.Scan

/-! ## A candidate that fills its text -/

/-- Beside a candidate that takes up the whole text there is no other one. -/
theorem candidates_eq_singleton {text : List Char} {c : Candidate} (hc : c ∈ candidates text)
    (hspan : c.span = ⟨0, byteLength text⟩) : candidates text = [c] := by
  have hascending := candidates_ascending text
  have hbound : ∀ k ∈ candidates text, k.span.stop ≤ byteLength text := fun k hk =>
    Detector.stop_le (detectorOf_faithful k.kind) ((mem_candidates_iff text k).mp hk).1
  obtain ⟨front, back, heq⟩ := List.append_of_mem hc
  rw [heq] at hascending hbound ⊢
  have hpairwise := List.pairwise_append.mp hascending.pairwise
  -- A candidate in front would end at byte 0, and one behind would start at the end of the text.
  have hfront : front = [] := by
    rw [List.eq_nil_iff_forall_not_mem]
    intro k hk
    have hstop := hpairwise.2.2 k hk c (by simp)
    have hne := hascending.nonempty k (by simp [hk])
    rw [hspan] at hstop
    simp only at hstop
    omega
  have hback : back = [] := by
    rw [List.eq_nil_iff_forall_not_mem]
    intro k hk
    have hstart := (List.pairwise_cons.mp hpairwise.2.1).1 k hk
    have hne := hascending.nonempty k (by simp [hk])
    have hstop := hbound k (by simp [hk])
    rw [hspan] at hstart
    simp only at hstart
    omega
  rw [hfront, hback, List.nil_append]

/-! ## Surrogates as whole texts -/

/-- The number of octets of an address. -/
def AddressKind.size : AddressKind → Nat
  | .ipv4 => 4
  | .ipv6 => 16
  | .mac => 6

theorem AddressKind.size_le (kind : AddressKind) : kind.size ≤ 16 := by
  cases kind <;> simp [AddressKind.size]

/-- The address that a surrogate spells: of the kind and layout of the replaced one, with the leading
bytes as its octets. -/
def addressLike (address : Address) (bytes : List UInt8) : Address :=
  match address with
  | .ipv4 _ => .ipv4 (leading 4 bytes)
  | .ipv6 _ => .ipv6 (leading 16 bytes)
  | .mac _ style => .mac (leading 6 bytes) style

theorem shape_addressLike (address : Address) (bytes : List UInt8) :
    (addressLike address bytes).shape = address.shape := by
  cases address <;> rfl

/-- Where there are enough bytes, the leading ones are the front of them. -/
theorem toList_leading {n : Nat} {bytes : List UInt8} (h : n ≤ bytes.length) :
    (leading n bytes).toList = bytes.take n := by
  apply List.ext_getElem
  · simp [h]
  · intro i hi hi'
    have hi : i < bytes.length := by
      simp only [List.length_take] at hi'
      omega
    simp [leading, hi]

theorem bytes_addressLike (address : Address) {bytes : List UInt8} (h : 16 ≤ bytes.length) :
    (addressLike address bytes).bytes = bytes.take address.kind.size := by
  cases address with
  | ipv4 octets => exact toList_leading (by omega)
  | ipv6 octets => exact toList_leading h
  | mac octets style => exact toList_leading (by omega)

/-- A surrogate is read as the address that it spells. -/
theorem read_renderLike (address : Address) (bytes : List UInt8) :
    (detectorOf address.kind).read (renderLike address bytes) = some (addressLike address bytes) := by
  cases address with
  | ipv4 octets =>
      show (Ipv4.read? (Ipv4.render (leading 4 bytes))).map Address.ipv4 = _
      rw [Ipv4.read?_render]
      rfl
  | ipv6 octets =>
      show (Ipv6.read? (Ipv6.renderFull (leading 16 bytes))).map Address.ipv6 = _
      rw [Ipv6.read?_renderFull]
      rfl
  | mac octets style =>
      show (Mac.read? (Mac.render style (leading 6 bytes))).map (fun m => Address.mac m.1 m.2) = _
      rw [Mac.read?_render]
      rfl

theorem isLiteral_renderLike (address : Address) (bytes : List UInt8) :
    IsLiteral address.kind (renderLike address bytes) := by
  cases address with
  | ipv4 octets => exact ⟨_, Ipv4.read?_render _⟩
  | ipv6 octets => exact ⟨_, Ipv6.read?_renderFull _⟩
  | mac octets style =>
      have hfits := fits_renderMac octets (leading 6 bytes) style
      cases style with
      | colon => exact Or.inl hfits
      | hyphen => exact Or.inr (Or.inl hfits)
      | dotted => exact Or.inr (Or.inr hfits)

/-- The scan of a surrogate finds the surrogate and nothing else.  Some candidate shares a byte with
it, since it stands in its own text; and a literal inside of a surrogate is the surrogate as a
whole. -/
theorem candidates_renderLike (address : Address) (bytes : List UInt8) :
    candidates (renderLike address bytes) =
      [⟨⟨0, byteLength (renderLike address bytes)⟩, addressLike address bytes⟩] := by
  have hstands : StandsOn (renderLike address bytes) address.kind
      (spanOf [] (renderLike address bytes)) :=
    ⟨[], renderLike address bytes, [], by simp, rfl, isLiteral_renderLike address bytes, rfl, rfl⟩
  obtain ⟨c, hc, -⟩ := exists_candidate_overlapping hstands
  obtain ⟨before, literal, after, htext, hspan, hfound⟩ := stands_of_mem_candidates hc
  have hliteral : IsLiteral c.kind literal :=
    (isLiteral_iff c.kind literal).mpr ⟨_, hfound.shape, hfound.read⟩
  have hfits := fits_renderLike address bytes
  rw [htext] at hfits
  -- The candidate is clear on both sides, so what it leaves of the surrogate is nothing.
  obtain ⟨rfl, rfl, hkind⟩ := inside_eq hfits hliteral
    (fun _ => ⟨[], by simpa using hfound.clear_before⟩)
    (fun _ => ⟨[], by simpa using hfound.clear_after⟩)
  have hwhole : literal = renderLike address bytes := by simpa using htext.symm
  subst hwhole
  have hspan : c.span = ⟨0, byteLength (renderLike address bytes)⟩ := by
    simpa [spanOf] using hspan
  have haddress : c.address = addressLike address bytes := by
    have hread := hfound.read
    rw [← hkind, read_renderLike] at hread
    exact (Option.some.inj hread).symm
  rw [candidates_eq_singleton hc hspan]
  obtain ⟨span, address'⟩ := c
  obtain rfl : span = _ := hspan
  obtain rfl : address' = _ := haddress
  rfl

/-- Surrogates for one address are equal exactly if the bytes that they show are. -/
theorem renderLike_eq_iff (address : Address) {bytes bytes' : List UInt8}
    (h : 16 ≤ bytes.length) (h' : 16 ≤ bytes'.length) :
    renderLike address bytes = renderLike address bytes' ↔
      bytes.take address.kind.size = bytes'.take address.kind.size := by
  constructor
  · intro heq
    have hcandidates := candidates_renderLike address bytes
    rw [heq, candidates_renderLike, List.singleton_inj] at hcandidates
    have haddress : addressLike address bytes = addressLike address bytes' :=
      (congrArg Candidate.address hcandidates).symm
    rw [← bytes_addressLike address h, haddress, bytes_addressLike address h']
  · intro htake
    have hleading : leading address.kind.size bytes = leading address.kind.size bytes' := by
      have hsize := address.kind.size_le
      apply Vector.toList_inj.mp
      rw [toList_leading (by omega), toList_leading (by omega), htake]
    cases address with
    | ipv4 octets => exact congrArg Ipv4.render hleading
    | ipv6 octets => exact congrArg Ipv6.renderFull hleading
    | mac octets style => exact congrArg (Mac.render style) hleading

/-! ## How often a surrogate is drawn -/

theorem card_byte : Fintype.card UInt8 = 256 := by
  have hbytes : UInt8 ≃ Fin 256 := ⟨UInt8.toFin, UInt8.ofFin, fun _ => rfl, fun _ => rfl⟩
  rw [Fintype.card_congr hbytes, Fintype.card_fin]

/-- What follows the given front part in a draw is free: each list of the remaining bytes makes one
draw. -/
def drawsBeginning {m : Nat} (front : List UInt8) (h : front.length ≤ m) :
    {draw : Octets m // draw.toList.take front.length = front} ≃
      List.Vector UInt8 (m - front.length) where
  toFun draw := ⟨draw.val.toList.drop front.length, by simp⟩
  invFun rest := ⟨⟨(front ++ rest.val).toArray, by simp [rest.property, h]⟩, by simp⟩
  left_inv := by
    rintro ⟨draw, hdraw⟩
    apply Subtype.ext
    apply Vector.toList_inj.mp
    show front ++ draw.toList.drop front.length = draw.toList
    -- Only the front is turned back into the part of the draw that it is.
    conv => lhs; lhs; rw [← hdraw]
    exact List.take_append_drop _ _
  right_inv := by
    rintro ⟨rest, hrest⟩
    apply Subtype.ext
    show (front ++ rest).drop front.length = rest
    rw [List.drop_left]

/-- Of the draws of sixteen bytes as many show one surrogate as show any other. -/
theorem card_draws (address : Address) {bytes : List UInt8} (h : 16 ≤ bytes.length) :
    Nat.card {draw : Octets 16 // renderLike address draw.toList = renderLike address bytes} =
      256 ^ (16 - address.kind.size) := by
  have hsize := address.kind.size_le
  have hlength : (bytes.take address.kind.size).length = address.kind.size := by
    rw [List.length_take]
    omega
  have hdraws (draw : Octets 16) : renderLike address draw.toList = renderLike address bytes ↔
      draw.toList.take (bytes.take address.kind.size).length = bytes.take address.kind.size := by
    rw [renderLike_eq_iff address (by simp) h, hlength]
  rw [Nat.card_congr (Equiv.subtypeEquivRight hdraws),
    Nat.card_congr (drawsBeginning _ (by omega)), Nat.card_eq_fintype_card, card_vector, card_byte,
    hlength]

/-- Writing is undone by the scan.  A surrogate, taken as a text, has exactly one candidate; it fills
the text, and has the kind and the layout of the address and the leading bytes as its octets.  So
surrogates of one kind and layout are equal exactly if their leading bytes are, and of all draws the
same number shows each of them. -/
theorem findCandidates_renderLike (address : Address) (bytes : List UInt8)
    (hbytes : 16 ≤ bytes.length) :
    (∃ c, findCandidates (renderLike address bytes) .never = .ok ([c], .never) ∧
      c.span = ⟨0, byteLength (renderLike address bytes)⟩ ∧
      c.kind = address.kind ∧ c.address.style? = address.style? ∧
      c.address.bytes = bytes.take address.kind.size) ∧
    (∀ (other : Address) (bytes' : List UInt8), other.kind = address.kind →
      other.style? = address.style? → 16 ≤ bytes'.length →
        (renderLike other bytes' = renderLike address bytes ↔
          bytes'.take address.kind.size = bytes.take address.kind.size)) ∧
    Nat.card {draw : Octets 16 // renderLike address draw.toList = renderLike address bytes} =
      256 ^ (16 - address.kind.size) := by
  refine ⟨?_, ?_, card_draws address hbytes⟩
  · have hshape := Prod.mk.inj (shape_addressLike address bytes)
    refine ⟨⟨⟨0, byteLength (renderLike address bytes)⟩, addressLike address bytes⟩, ?_, rfl,
      hshape.1, hshape.2, bytes_addressLike address hbytes⟩
    rw [findCandidates_never, candidates_renderLike]
  · intro other bytes' hkind hstyle hbytes'
    have hshape : other.shape = address.shape := Prod.ext hkind hstyle
    rw [renderLike_of_shape hshape, renderLike_eq_iff address hbytes' hbytes]

/-- A digest of thirty-two bytes, shown in the dotted layout. -/
theorem findCandidates_renderLike_dotted :
    let address : Address := .mac #v[0, 0, 0, 0, 0, 0] .dotted
    let bytes := List.replicate 32 (171 : UInt8)
    16 ≤ bytes.length ∧
      (∃ c, findCandidates (renderLike address bytes) .never = .ok ([c], .never) ∧
        c.span = ⟨0, byteLength (renderLike address bytes)⟩ ∧
        c.kind = address.kind ∧ c.address.style? = address.style? ∧
        c.address.bytes = bytes.take address.kind.size) ∧
      (∀ (other : Address) (bytes' : List UInt8), other.kind = address.kind →
        other.style? = address.style? → 16 ≤ bytes'.length →
          (renderLike other bytes' = renderLike address bytes ↔
            bytes'.take address.kind.size = bytes.take address.kind.size)) ∧
      Nat.card {draw : Octets 16 // renderLike address draw.toList = renderLike address bytes} =
        256 ^ (16 - address.kind.size) := by
  intro address bytes
  have hbytes : 16 ≤ bytes.length := by decide
  exact ⟨hbytes, findCandidates_renderLike address bytes hbytes⟩

end NetRedact

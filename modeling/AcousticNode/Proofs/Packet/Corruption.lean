import AcousticNode.Proofs.Checksum.Detection
import AcousticNode.Proofs.Packet.Parts
import Mathlib.Tactic.IntervalCases

/-!
# Corrupted frames

The checksum of a frame gives away every corruption that is confined to sixteen places in a row
or that changes three bits at most, wherever in the frame it happens.

* `ofBytes_corrupted` : a corrupted frame is not a packet.
-/

set_option autoImplicit false

namespace AcousticNode

/-! ## The bits that differ -/

namespace Bytes

/-- Which bits of two byte strings differ, in the order in which they are sent. -/
def difference (bs cs : Bytes) : List Bool := List.zipWith xor (bits bs) (bits cs)

theorem difference_cons (b c : UInt8) (bs cs : Bytes) :
    difference (b :: bs) (c :: cs) =
      List.zipWith xor (octetBits b) (octetBits c) ++ difference bs cs := by
  have hlen : (octetBits b).length = (octetBits c).length := rfl
  exact List.zipWith_append hlen

theorem octetBits_injective {b c : UInt8} (h : octetBits b = octetBits c) : b = c := by
  simp only [octetBits, List.map_cons, List.map_nil, List.cons.injEq, and_true] at h
  apply UInt8.toNat_inj.mp
  apply Nat.eq_of_testBit_eq
  intro i
  by_cases hi : i < 8
  · obtain ⟨h7, h6, h5, h4, h3, h2, h1, h0⟩ := h
    interval_cases i <;> assumption
  · have hbound : 2 ^ 8 ≤ 2 ^ i := Nat.pow_le_pow_right (by decide) (by omega)
    rw [Nat.testBit_lt_two_pow (lt_of_lt_of_le b.toNat_lt hbound),
      Nat.testBit_lt_two_pow (lt_of_lt_of_le c.toNat_lt hbound)]

theorem eq_of_not_mem_zipWith {as bs : List Bool} (hlen : as.length = bs.length)
    (h : true ∉ List.zipWith xor as bs) : as = bs := by
  induction as generalizing bs with
  | nil =>
    cases bs with
    | nil => rfl
    | cons b bs => cases hlen
  | cons a as ih =>
    cases bs with
    | nil => cases hlen
    | cons b bs =>
      rw [List.zipWith_cons_cons, List.mem_cons, not_or] at h
      have hhead : a = b := by
        cases a <;> cases b <;> first | rfl | exact absurd rfl h.1
      rw [hhead, ih (Nat.succ.inj hlen) h.2]

/-- Byte strings of one length that differ do so in some bit. -/
theorem mem_difference_of_ne {bs cs : Bytes} (hlen : bs.length = cs.length) (hne : bs ≠ cs) :
    true ∈ difference bs cs := by
  induction bs generalizing cs with
  | nil =>
    cases cs with
    | nil => exact absurd rfl hne
    | cons c cs => cases hlen
  | cons b bs ih =>
    cases cs with
    | nil => cases hlen
    | cons c cs =>
      rw [difference_cons, List.mem_append]
      by_cases hhead : b = c
      · subst hhead
        exact .inr (ih (Nat.succ.inj hlen) fun htail => hne (htail ▸ rfl))
      · refine .inl (Classical.byContradiction fun hmem => hhead ?_)
        exact octetBits_injective (eq_of_not_mem_zipWith rfl hmem)

theorem not_mem_zipWith_self (as : List Bool) : true ∉ List.zipWith xor as as := by
  induction as with
  | nil => exact List.not_mem_nil
  | cons a as ih =>
    rw [List.zipWith_cons_cons, Bool.xor_self, List.mem_cons, not_or]
    exact ⟨Bool.noConfusion, ih⟩

/-- Replacing an octet changes no bits but its own. -/
theorem difference_set (bs : Bytes) (j : Nat) (c : UInt8) :
    ∀ i, (difference bs (bs.set j c))[i]? = some true → 8 * j ≤ i ∧ i < 8 * j + 8 := by
  induction bs generalizing j with
  | nil => intro i hi; cases hi
  | cons b bs ih =>
    intro i hi
    have hoctet : ∀ x y, (List.zipWith xor (octetBits x) (octetBits y)).length = 8 := fun _ _ => rfl
    cases j with
    | zero =>
      rw [List.set_cons_zero, difference_cons, List.getElem?_append, hoctet] at hi
      split at hi
      · omega
      · exact absurd (List.mem_of_getElem? hi) (not_mem_zipWith_self _)
    | succ j =>
      rw [List.set_cons_succ, difference_cons, List.getElem?_append, hoctet] at hi
      split at hi
      · exact absurd (List.mem_of_getElem? hi) (not_mem_zipWith_self _)
      · have := ih j (i - 8) hi
        omega

end Bytes

namespace Checksum

/-- What corruption adds to the register does not depend on the frame. -/
theorem syndrome_difference {w w' : Bytes} (hlen : w.length = w'.length) :
    syndrome (Bytes.difference w w') = residue w ^^^ residue w' := by
  have hbits : (Bytes.bits w).length = (Bytes.bits w').length := by
    rw [length_bits, length_bits, hlen]
  have h := foldl_step_xor (Bytes.bits w) (Bytes.bits w') hbits start.toBitVec start.toBitVec
  rw [BitVec.xor_self] at h
  exact h

end Checksum

/-! ## The frames that are accepted -/

theorem Packet.verify_of_decode {b : Bytes} {p : Packet} (h : Packet.decode b = .ok p) :
    Checksum.verify b = true := by
  obtain ⟨data, hspells⟩ := Packet.decode_eq_ok_iff.mp h
  rw [hspells.octets]
  exact Checksum.verify_append _

theorem Packet.length_of_decode {b : Bytes} {p : Packet} (h : Packet.decode b = .ok p) :
    b.length ≤ Limits.maxPacketSize := by
  refine Classical.byContradiction fun hlong => ?_
  rw [Packet.decode_of_long (Nat.lt_of_not_le hlong)] at h
  cases h

theorem Frame.ofBytes_eq_valid_iff {raw : Bytes} {p : Packet} :
    Frame.ofBytes raw = .valid p ↔ Packet.decode raw = .ok p := by
  unfold Frame.ofBytes
  cases Packet.decode raw <;> simp

theorem Frame.exists_invalid_of_verify {raw : Bytes} (h : Checksum.verify raw ≠ true) :
    ∃ reason, Frame.ofBytes raw = .invalid raw reason := by
  unfold Frame.ofBytes
  cases hdecode : Packet.decode raw with
  | ok p => exact absurd (Packet.verify_of_decode hdecode) h
  | error reason => exact ⟨reason, rfl⟩

/-- **Corruption is detected.**  Of an accepted frame, change bits within sixteen places in a
row, or up to three bits anywhere, or a single octet: the frame is accepted no more. -/
theorem Frame.ofBytes_corrupted {w w' : Bytes} {p : Packet} (hvalid : Frame.ofBytes w = .valid p)
    (hlen : w'.length = w.length) (hne : w' ≠ w)
    (hdiff : (∃ k, ∀ i, (Bytes.difference w w')[i]? = some true → k ≤ i ∧ i < k + 16) ∨
      (Bytes.difference w w').count true ≤ 3 ∨ ∃ j b, w' = w.set j b) :
    ∃ reason, Frame.ofBytes w' = .invalid w' reason := by
  have hdecode := Frame.ofBytes_eq_valid_iff.mp hvalid
  have hmem := Bytes.mem_difference_of_ne hlen.symm hne.symm
  have hsyndrome : Checksum.syndrome (Bytes.difference w w') ≠ 0#16 := by
    rcases hdiff with ⟨k, hburst⟩ | hcount | ⟨j, b, rfl⟩
    · exact Checksum.syndrome_ne_zero_of_burst hmem hburst
    · have hbits : (Bytes.difference w w').length ≤ 8 * Limits.maxPacketSize := by
        rw [Bytes.difference, List.length_zipWith, Checksum.length_bits]
        have := Packet.length_of_decode hdecode
        omega
      exact Checksum.syndrome_ne_zero_of_count hbits hmem hcount
    · refine Checksum.syndrome_ne_zero_of_burst (k := 8 * j) hmem fun i hi => ?_
      have := Bytes.difference_set w j b i hi
      omega
  have hresidue := Checksum.residue_eq_zero_of_verify (Packet.verify_of_decode hdecode)
  rw [Checksum.syndrome_difference hlen.symm, hresidue, BitVec.zero_xor] at hsyndrome
  exact Frame.exists_invalid_of_verify fun hverify =>
    hsyndrome (Checksum.residue_eq_zero_of_verify hverify)

/-- A refusal with two bits changed, one of them in the checksum itself. -/
theorem Frame.ofBytes_corrupted_refusal :
    let w := [0x45, 0x05, 0x00, 0x03, 0x02, 0xea, 0x67]
    let w' := [0x45, 0x05, 0x00, 0x03, 0x03, 0xea, 0x66]
    Frame.ofBytes w = .valid (Packet.errorReport ⟨⟨5⟩, .backend, 3⟩ .invalidPayload) ∧
      w'.length = w.length ∧ w' ≠ w ∧ (Bytes.difference w w').count true ≤ 3 ∧
      ∃ reason, Frame.ofBytes w' = .invalid w' reason := by
  intro w w'
  have hvalid : Frame.ofBytes w =
      .valid (Packet.errorReport ⟨⟨5⟩, .backend, 3⟩ .invalidPayload) := by decide +kernel
  have hlen : w'.length = w.length := rfl
  have hne : w' ≠ w := by decide
  have hcount : (Bytes.difference w w').count true ≤ 3 := by decide +kernel
  exact ⟨hvalid, hlen, hne, hcount,
    Frame.ofBytes_corrupted hvalid hlen hne (.inr (.inl hcount))⟩

end AcousticNode

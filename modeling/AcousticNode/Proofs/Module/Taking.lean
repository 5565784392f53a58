import AcousticNode.Proofs.Module.Framing

/-!
# Taking records off

A record says itself where it ends.  So it is taken off the front of any octets that begin with it,
nothing else is ever taken, and octets that begin no record stay as they are, with what is wrong
with them.

* `take_eq_ok_iff` : what is taken and what is left;
* `take_eq_error_iff` : what is not taken, and why;
* `encode_append_inj` : octets begin with one record at most;
* `takeTimes_conserved` : whatever attempts fail, no octet is lost or read twice;
* `take_delimited` : how taking undoes writing.
-/

set_option autoImplicit false

namespace AcousticNode

namespace Record

/-- What is wrong with octets that begin no record: the header is cut short, the tag is unknown, or
the value is longer than what is left.  The tag is looked at before the length. -/
inductive Unreadable : Bytes → Fault → Prop where
  | header (bs : Bytes) (h : bs.length < Limits.recordHeaderSize) :
    Unreadable bs (.insufficient Limits.recordHeaderSize bs.length)
  | tag (tag len : UInt8) (rest : Bytes)
    (h : (Enumeration.ofByte? tag : Option ModuleCode) = none) :
    Unreadable (tag :: len :: rest) (.unknownModule tag)
  | value (code : ModuleCode) (len : UInt8) (rest : Bytes) (h : rest.length < len.toNat) :
    Unreadable (code.byte :: len :: rest)
      (.insufficient (Limits.recordHeaderSize + len.toNat) (rest.length + 2))

theorem take_eq_ok_iff {bs rest : Bytes} {r : Record} :
    take bs = (.ok r, rest) ↔ bs = r.encode ++ rest := by
  constructor
  · exact eq_encode_append_of_take
  · rintro rfl
    exact take_encode_append r rest

theorem take_of_unreadable {bs : Bytes} {e : Fault} (h : Unreadable bs e) :
    take bs = (.error e, bs) := by
  cases h with
  | header _ hshort =>
    match bs, hshort with
    | [], _ => rfl
    | [_], _ => rfl
  | tag tag len rest htag => rw [take, htag]
  | value code len rest hlong =>
    rw [take, Enumeration.ofByte?_byte]
    exact if_neg (Nat.not_le.mpr hlong)

theorem unreadable_of_take {bs : Bytes} {e : Fault} (h : (take bs).1 = .error e) :
    Unreadable bs e := by
  match bs with
  | [] =>
    cases h
    exact .header [] (by decide)
  | [tag] =>
    cases h
    exact .header [tag] (by decide : 1 < Limits.recordHeaderSize)
  | tag :: len :: rest =>
    rw [take] at h
    cases htag : (Enumeration.ofByte? tag : Option ModuleCode) with
    | none =>
      rw [htag] at h
      cases h
      exact .tag tag len rest htag
    | some code =>
      simp only [htag] at h
      split at h
      · cases h
      · rename_i hlong
        cases h
        obtain rfl := Enumeration.byte_of_ofByte? htag
        exact .value code len rest (Nat.lt_of_not_le hlong)

/-- Octets that begin no record are all left. -/
theorem take_eq_error_iff {bs left : Bytes} {e : Fault} :
    take bs = (.error e, left) ↔ left = bs ∧ Unreadable bs e := by
  constructor
  · intro h
    exact ⟨take_error h, unreadable_of_take (congrArg Prod.fst h)⟩
  · rintro ⟨rfl, h⟩
    exact take_of_unreadable h

/-- The octets of one record are never the beginning of another one's. -/
theorem encode_append_inj {r r' : Record} {rest rest' : Bytes} :
    r.encode ++ rest = r'.encode ++ rest' ↔ r = r' ∧ rest = rest' := by
  constructor
  · intro h
    have htake := take_encode_append r rest
    rw [h, take_encode_append] at htake
    obtain ⟨hrecord, hrest⟩ := Prod.mk.inj htake
    exact ⟨(Except.ok.inj hrecord).symm, hrest.symm⟩
  · rintro ⟨rfl, rfl⟩
    rfl

/-! ## Attempt after attempt -/

/-- The records of so many attempts to take one, and what is left by then. -/
def takeTimes : Nat → Bytes → List Record × Bytes
  | 0, bs => ([], bs)
  | attempts + 1, bs =>
    match take bs with
    | (.ok r, rest) => (r :: (takeTimes attempts rest).1, (takeTimes attempts rest).2)
    | (.error _, left) => takeTimes attempts left

theorem takeTimes_conserved (attempts : Nat) (bs : Bytes) :
    (takeTimes attempts bs).1.flatMap encode ++ (takeTimes attempts bs).2 = bs := by
  induction attempts generalizing bs with
  | zero => rfl
  | succ attempts ih =>
    rcases htake : take bs with ⟨e | r, rest⟩
    · rw [takeTimes, htake]
      exact (ih rest).trans (take_error htake)
    · rw [takeTimes, htake]
      show (r :: _).flatMap encode ++ _ = bs
      rw [List.flatMap_cons, List.append_assoc, ih rest, ← eq_encode_append_of_take htake]

/-- Records that stand at the front are all taken, with an attempt for each. -/
theorem takeTimes_encode_append (rs : List Record) (rest : Bytes) :
    takeTimes rs.length (rs.flatMap encode ++ rest) = (rs, rest) := by
  induction rs with
  | nil => rfl
  | cons r rs ih =>
    rw [List.flatMap_cons, List.append_assoc, List.length_cons, takeTimes, take_encode_append]
    simp only [ih]

/-! ## Taking and writing -/

/-- How records are told apart from what stands behind them. -/
structure Delimited (bs : Bytes) : Prop where
  /-- A record is taken exactly off the octets that begin with it, and the others are left. -/
  taken_iff : ∀ r rest, take bs = (.ok r, rest) ↔ bs = r.encode ++ rest
  /-- Octets begin with one record at most. -/
  unique : ∀ (r r' : Record) (rest rest' : Bytes), bs = r.encode ++ rest →
    bs = r'.encode ++ rest' → r = r' ∧ rest = rest'
  /-- Header and value make up what is gone. -/
  length_eq : ∀ r rest, take bs = (.ok r, rest) → r.size + rest.length = bs.length
  /-- Octets that begin no record are all left. -/
  refused_iff : ∀ e left, take bs = (.error e, left) ↔ left = bs ∧ Unreadable bs e
  /-- Octet by octet, every octet that is looked at is there. -/
  inRange : cut? bs = some ((take bs).1.map fun r => (r.code, r.value), (take bs).2)
  /-- Attempt after attempt, no octet is lost or read twice. -/
  conserved : ∀ attempts, (takeTimes attempts bs).1.flatMap encode ++ (takeTimes attempts bs).2 = bs
  /-- Records that stand at the front are taken one after another. -/
  inOrder : ∀ rs rest, bs = rs.flatMap encode ++ rest → takeTimes rs.length bs = (rs, rest)

/-- **Taking undoes writing, and takes nothing else.**  Whatever the octets, a record is taken off
them if they begin with its octets, which no two records share; otherwise they stay. -/
theorem take_delimited (bs : Bytes) : Delimited bs where
  taken_iff _ _ := take_eq_ok_iff
  unique _ _ _ _ h h' := encode_append_inj.mp (h.symm.trans h')
  length_eq _ _ h := (length_of_take h).symm
  refused_iff _ _ := take_eq_error_iff
  inRange := cut?_eq bs
  conserved attempts := takeTimes_conserved attempts bs
  inOrder rs rest := by
    rintro rfl
    exact takeTimes_encode_append rs rest

/-- Surroundings are taken, and a reading of the battery that is cut short stays. -/
example : takeTimes 3 [0x54, 2, 20, 60, 0x42, 5, 1, 2] =
    ([⟨.ambient, [20, 60], by decide⟩], [0x42, 5, 1, 2]) := rfl

end Record

end AcousticNode

import AcousticNode.Module.Basic

/-!
# Framed record lists

A configuration payload is a byte string that is cut into records.  Only the framing is
checked when it is received; the records are decoded by whoever uses them, who can then refuse
the list as a whole.

* `count_encodeAll` : records of modules are framed, one to a module.
-/

set_option autoImplicit false

namespace AcousticNode

theorem Module.count_encodeAll {ms : List Module} {bs : Bytes}
    (h : Module.encodeAll ms = .ok bs) : Record.count bs = .ok ms.length := by
  induction ms generalizing bs with
  | nil =>
    simp only [Module.encodeAll, Except.ok.injEq] at h
    subst h
    rw [Record.count]
    rfl
  | cons m ms ih =>
    simp only [Module.encodeAll, bind, Except.bind, pure, Except.pure] at h
    cases hr : m.toRecord with
    | error e => simp [hr] at h
    | ok record =>
      cases hms : Module.encodeAll ms with
      | error e => simp [hr, hms] at h
      | ok rest =>
        simp only [hr, hms, Except.ok.injEq] at h
        subst h
        rw [Record.encode, Record.count_frame_append _ record.fits, ih hms]
        rfl

/-- Back-to-back records whose tags and values have not been looked at. -/
structure RecordList where
  bytes : Bytes
  framed : ∃ n, Record.count bytes = .ok n
  deriving DecidableEq

namespace RecordList

/-- Accepts a byte string that is cut into records. -/
def ofBytes (bytes : Bytes) : Except Fault RecordList :=
  match h : Record.count bytes with
  | .ok n => .ok ⟨bytes, n, h⟩
  | .error e => .error e

/-- The records of modules. -/
def ofModules (ms : List Module) : Except Fault RecordList :=
  match h : Module.encodeAll ms with
  | .ok bytes => .ok ⟨bytes, ms.length, Module.count_encodeAll h⟩
  | .error e => .error e

/-- Decodes every record. -/
def modules (l : RecordList) : Except Fault (List Module) := Module.decodeAll l.bytes

end RecordList

end AcousticNode

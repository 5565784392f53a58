import AcousticNode.Proofs.Grammar.Basic
import AcousticNode.Proofs.Payload.Aspects

/-!
# What layouts and records write

The octets that a writer produces form a language.  A layout in sequence writes the product of
two languages, a renamed one writes what it wrote before, and a word of `w` octets is any `w`
octets.  So the languages of the module records are computed from their layouts.

* `image_seq`, `image_rename`, `image_octet`, … : the building blocks;
* `image_frame` : the records of the modules with one code;
* `mem_aspect` : the records of an aspect.
-/

set_option autoImplicit false

namespace AcousticNode.Grammar

variable {α β : Type}

/-- What a writer writes. -/
def image (write : α → Bytes) : Language UInt8 := {bs | ∃ a, write a = bs}

theorem mem_image {write : α → Bytes} {bs : Bytes} : bs ∈ image write ↔ ∃ a, write a = bs :=
  Iff.rfl

theorem mem_octets {n : Nat} {bs : Bytes} : bs ∈ octets n ↔ bs.length = n := Iff.rfl

theorem mem_oneOf {choices : List UInt8} {bs : Bytes} :
    bs ∈ oneOf choices ↔ ∃ b ∈ choices, bs = [b] := Iff.rfl

theorem mem_record {tag : UInt8} {values : Language UInt8} {bs : Bytes} :
    bs ∈ record tag values ↔
      ∃ len : UInt8, ∃ value ∈ values, len.toNat = value.length ∧ bs = tag :: len :: value :=
  Iff.rfl

theorem octets_mul (m n : Nat) : octets m * octets n = octets (m + n) := by
  ext bs
  rw [Language.mem_mul, mem_octets]
  constructor
  · rintro ⟨a, ha, b, hb, rfl⟩
    rw [mem_octets] at ha hb
    rw [List.length_append, ha, hb]
  · intro h
    refine ⟨bs.take m, ?_, bs.drop m, ?_, List.take_append_drop m bs⟩
    · rw [mem_octets, List.length_take]
      omega
    · rw [mem_octets, List.length_drop]
      omega

/-- Products of fixed widths inside a longer product. -/
theorem octets_mul_mul (m n : Nat) (l : Language UInt8) :
    octets m * (octets n * l) = octets (m + n) * l := by
  rw [← mul_assoc, octets_mul]

/-! ## Layouts -/

theorem image_seq (l : Layout α) (r : Layout β) :
    image (l.seq r).write = image l.write * image r.write := by
  ext bs
  rw [Language.mem_mul]
  constructor
  · rintro ⟨⟨a, b⟩, rfl⟩
    exact ⟨l.write a, ⟨a, rfl⟩, r.write b, ⟨b, rfl⟩, rfl⟩
  · rintro ⟨_, ⟨a, rfl⟩, _, ⟨b, rfl⟩, rfl⟩
    exact ⟨(a, b), rfl⟩

theorem image_rename (l : Layout α) (f : α → β) (g : β → α) (left_inv : ∀ a, g (f a) = a)
    (right_inv : ∀ b, f (g b) = b) :
    image (l.rename f g left_inv right_inv).write = image l.write := by
  ext bs
  constructor
  · rintro ⟨b, rfl⟩
    exact ⟨g b, rfl⟩
  · rintro ⟨a, rfl⟩
    exact ⟨f a, congrArg l.write (left_inv a)⟩

/-- A layout that never refuses writes every byte string of its width. -/
theorem image_eq_octets (l : Layout α) (h : ∀ bs, ∃ a, l.read bs = .ok a) :
    image l.write = octets l.width := by
  ext bs
  rw [mem_octets]
  constructor
  · rintro ⟨a, rfl⟩
    exact l.length_write a
  · intro hlen
    obtain ⟨a, ha⟩ := h bs
    exact ⟨a, l.write_of_read bs a hlen ha⟩

theorem image_octet : image Layout.octet.write = octets 1 :=
  image_eq_octets Layout.octet fun _ => ⟨_, rfl⟩

theorem image_enumerated (α : Type) [Enumeration α] (field : OctetField) :
    image (Layout.enumerated α field).write =
      oneOf ((Enumeration.all : List α).map Enumeration.byte) := by
  ext bs
  rw [mem_oneOf]
  constructor
  · rintro ⟨a, rfl⟩
    exact ⟨Enumeration.byte a, List.mem_map_of_mem (Enumeration.mem_all a), rfl⟩
  · rintro ⟨_, hb, rfl⟩
    obtain ⟨a, _, rfl⟩ := List.mem_map.mp hb
    exact ⟨a, rfl⟩

theorem image_wordBE : image Layout.wordBE.write = octets 2 :=
  image_eq_octets Layout.wordBE fun _ => ⟨_, rfl⟩

theorem image_int32BE : image Layout.int32BE.write = octets 4 :=
  image_eq_octets Layout.int32BE fun _ => ⟨_, rfl⟩

theorem image_int32LE : image Layout.int32LE.write = octets 4 :=
  image_eq_octets Layout.int32LE fun _ => ⟨_, rfl⟩

theorem image_int64LE : image Layout.int64LE.write = octets 8 :=
  image_eq_octets Layout.int64LE fun _ => ⟨_, rfl⟩

theorem image_binary32LE : image Layout.binary32LE.write = octets 4 :=
  image_eq_octets Layout.binary32LE fun _ => ⟨_, rfl⟩

theorem image_binary64LE : image Layout.binary64LE.write = octets 8 :=
  image_eq_octets Layout.binary64LE fun _ => ⟨_, rfl⟩

/-! ## Values of fixed layout -/

theorem image_battery : image Battery.layout.write = octets 1 * oneOf [0, 1, 2, 3, 4] := by
  rw [Battery.layout, image_rename, image_seq, image_octet, image_enumerated]
  rfl

theorem image_location : image Location.layout.write = octets 8 := by
  rw [Location.layout, image_rename, image_seq, image_binary32LE, octets_mul]

theorem image_clock : image Clock.layout.write = octets 8 := by
  rw [Clock.layout, image_rename, image_int64LE]

theorem image_storage : image Storage.layout.write = octets 8 := by
  rw [Storage.layout, image_rename, image_seq, image_int32LE, octets_mul]

theorem image_ambient : image Ambient.layout.write = octets 2 := by
  rw [Ambient.layout, image_rename, image_seq, image_octet, octets_mul]

theorem image_hydrophoneStatus : image HydrophoneStatus.layout.write = octets 34 := by
  simp only [HydrophoneStatus.layout, image_rename, image_seq, image_octet, image_binary64LE,
    image_int64LE, octets_mul]

theorem image_hydrophoneLogging : image HydrophoneLogging.layout.write = octets 19 := by
  simp only [HydrophoneLogging.layout, image_rename, image_seq, image_octet, image_wordBE,
    image_int32BE, octets_mul]

theorem image_hydrophoneStreaming : image HydrophoneStreaming.layout.write =
    flag * (flag * (octets 3 * (flag * (flag * octets 11)))) := by
  have hflag : ∀ field, image (Layout.enumerated Bool field).write = flag := fun field =>
    image_enumerated Bool field
  simp only [HydrophoneStreaming.layout, image_rename, image_seq, image_octet, hflag,
    image_int64LE, octets_mul, octets_mul_mul]

theorem image_hydrophoneStats : image HydrophoneStats.layout.write = octets 11 := by
  simp only [HydrophoneStats.layout, image_rename, image_seq, image_octet, image_int64LE,
    octets_mul]

/-! ## Records -/

/-- The records of the modules that wrap one type, when their values are the octets of a
language and have one length. -/
theorem image_frame (wrap : α → Module) {code : ModuleCode} {values : Language UInt8}
    (hcode : ∀ a, (wrap a).code = code) (hfixed : code.fixedLength?.isSome)
    (hvalues : image (fun a => (wrap a).value) = values) :
    image (fun a => (wrap a).frame) = record code.byte values := by
  subst hvalues
  ext bs
  rw [mem_record]
  constructor
  · rintro ⟨a, rfl⟩
    have hfits : (wrap a).value.length ≤ Limits.maxRecordValue :=
      Module.fits_of_fixedLength (by rwa [hcode a])
    refine ⟨UInt8.ofNat (wrap a).value.length, (wrap a).value, ⟨a, rfl⟩,
      Record.toNat_length hfits, ?_⟩
    simp only [Module.frame, Record.frame, hcode a]
  · rintro ⟨len, _, ⟨a, rfl⟩, hlen, rfl⟩
    refine ⟨a, ?_⟩
    simp only [Module.frame, Record.frame, hcode a, ← hlen, UInt8.ofNat_toNat]

theorem image_frame_battery : image (fun a => (Module.battery a).frame) = battery :=
  image_frame Module.battery (fun _ => rfl) rfl image_battery

theorem image_frame_location : image (fun a => (Module.location a).frame) = location :=
  image_frame Module.location (fun _ => rfl) rfl image_location

theorem image_frame_clock : image (fun a => (Module.clock a).frame) = clock :=
  image_frame Module.clock (fun _ => rfl) rfl image_clock

theorem image_frame_ambient : image (fun a => (Module.ambient a).frame) = ambient :=
  image_frame Module.ambient (fun _ => rfl) rfl image_ambient

theorem image_frame_storage : image (fun a => (Module.storage a).frame) = storage :=
  image_frame Module.storage (fun _ => rfl) rfl image_storage

theorem image_frame_status : image (fun a => (Module.hydrophoneStatus a).frame) = aspect .status :=
  image_frame Module.hydrophoneStatus (fun _ => rfl) rfl image_hydrophoneStatus

theorem image_frame_logging :
    image (fun a => (Module.hydrophoneLogging a).frame) = aspect .logging :=
  image_frame Module.hydrophoneLogging (fun _ => rfl) rfl image_hydrophoneLogging

theorem image_frame_streaming :
    image (fun a => (Module.hydrophoneStreaming a).frame) = aspect .streaming :=
  image_frame Module.hydrophoneStreaming (fun _ => rfl) rfl image_hydrophoneStreaming

theorem image_frame_stats : image (fun a => (Module.hydrophoneStats a).frame) = aspect .stats :=
  image_frame Module.hydrophoneStats (fun _ => rfl) rfl image_hydrophoneStats

/-- The value of a hydrophone record is the product of its aspects. -/
theorem image_hydrophone : image Hydrophone.write =
    aspect .status * (aspect .logging * (aspect .streaming * aspect .stats)) := by
  rw [← image_frame_status, ← image_frame_logging, ← image_frame_streaming, ← image_frame_stats]
  ext bs
  simp only [Language.mem_mul, mem_image]
  constructor
  · rintro ⟨h, rfl⟩
    exact ⟨_, ⟨h.status, rfl⟩, _, ⟨_, ⟨h.logging, rfl⟩, _, ⟨_, ⟨h.streaming, rfl⟩, _,
      ⟨h.stats, rfl⟩, rfl⟩, rfl⟩, rfl⟩
  · rintro ⟨_, ⟨status, rfl⟩, _, ⟨_, ⟨logging, rfl⟩, _, ⟨_, ⟨streaming, rfl⟩, _, ⟨stats, rfl⟩,
      rfl⟩, rfl⟩, rfl⟩
    exact ⟨⟨status, logging, streaming, stats⟩, rfl⟩

theorem image_frame_hydrophone : image (fun a => (Module.hydrophone a).frame) = hydrophone :=
  image_frame Module.hydrophone (fun _ => rfl) rfl image_hydrophone

/-- An aspect is the records of the modules with its code. -/
theorem mem_aspect {a : Aspect} {bs : Bytes} :
    bs ∈ aspect a ↔ ∃ m : Module, m.code = a.code ∧ m.frame = bs := by
  constructor
  · intro h
    cases a
    case status =>
      obtain ⟨s, rfl⟩ := image_frame_status ▸ h
      exact ⟨_, rfl, rfl⟩
    case logging =>
      obtain ⟨c, rfl⟩ := image_frame_logging ▸ h
      exact ⟨_, rfl, rfl⟩
    case streaming =>
      obtain ⟨c, rfl⟩ := image_frame_streaming ▸ h
      exact ⟨_, rfl, rfl⟩
    case stats =>
      obtain ⟨s, rfl⟩ := image_frame_stats ▸ h
      exact ⟨_, rfl, rfl⟩
  · rintro ⟨m, hcode, rfl⟩
    cases m <;> cases a <;> cases hcode
    · exact image_frame_status ▸ ⟨_, rfl⟩
    · exact image_frame_logging ▸ ⟨_, rfl⟩
    · exact image_frame_streaming ▸ ⟨_, rfl⟩
    · exact image_frame_stats ▸ ⟨_, rfl⟩

end AcousticNode.Grammar

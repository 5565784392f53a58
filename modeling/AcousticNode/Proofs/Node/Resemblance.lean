import AcousticNode.Proofs.Node.Query
import AcousticNode.Proofs.Node.Run

/-!
# What the mode of a node shows in

A routine looks at the mode for one purpose: the list of modes that it tells the shore points at the
active one.  So a routine that is run in one mode and in another makes the same packet, but for that
octet and for the checksum.

* `Module.Resembles`, `Packet.Resembles` : the same but for the active index in lists of modes;
* `frame_cases` : the octets of modules that resemble each other;
* `run_related`, `answer_related` : every routine, and every answer of a dispatcher.
-/

set_option autoImplicit false

namespace AcousticNode

open Outcome
open ConfigurationStore (load)

/-! ## Modules -/

/-- The same module; or the same modes, of which another one is active. -/
inductive Module.Resembles : Module → Module → Prop where
  | same (m : Module) : Resembles m m
  | modeList {l l' : ModeList} (modes_eq : l'.modes = l.modes) :
      Resembles (.modeList l) (.modeList l')

namespace Module.Resembles

variable {m m' : Module} {ms ms' : List Module}

/-- The octet of the index is the last one. -/
theorem frame_cases (h : m.Resembles m') : m'.frame = m.frame ∨
    ∃ octets index index', m.code = .modeList ∧ m.frame = octets ++ [index] ∧
      m'.frame = octets ++ [index'] := by
  cases h with
  | same m => exact .inl rfl
  | @modeList l l' hmodes =>
    refine .inr ⟨ModuleCode.modeList.byte :: UInt8.ofNat (l.modes.length + 1) :: l.modes,
      l.activeIndex, l'.activeIndex, rfl, ?_, ?_⟩
    · simp [frame, Record.frame, value, ModeList.write, code]
    · simp [frame, Record.frame, value, ModeList.write, code, hmodes]

theorem length_value_eq (h : m.Resembles m') : m'.value.length = m.value.length := by
  cases h with
  | same m => rfl
  | modeList hmodes => simp only [value, ModeList.write, List.length_append, hmodes]; rfl

theorem length_frame_eq (h : m.Resembles m') : m'.frame.length = m.frame.length := by
  rcases h.frame_cases with heq | ⟨octets, index, index', _, hframe, hframe'⟩
  · rw [heq]
  · rw [hframe, hframe', List.length_append, List.length_append]
    rfl

theorem length_frames_eq (h : List.Forall₂ Resembles ms ms') :
    (ms'.flatMap frame).length = (ms.flatMap frame).length := by
  induction h with
  | nil => rfl
  | cons hm _ ih =>
    rw [List.flatMap_cons, List.flatMap_cons, List.length_append, List.length_append,
      hm.length_frame_eq, ih]

/-- Whether a value fits a record is a matter of its length. -/
theorem toRecord_related (h : m.Resembles m') :
    Related (fun _ _ => True) m.toRecord m'.toRecord := by
  by_cases hfits : m.value.length ≤ Limits.maxRecordValue
  · have hfits' : m'.value.length ≤ Limits.maxRecordValue := h.length_value_eq ▸ hfits
    rw [toRecord_of_fits hfits, toRecord_of_fits hfits']
    exact .ok trivial
  · have hlong : m.Oversized := oversized_iff.mpr (Nat.lt_of_not_le hfits)
    have hlong' : m'.Oversized := oversized_iff.mpr (h.length_value_eq ▸ Nat.lt_of_not_le hfits)
    rw [toRecord_eq_error_iff.mpr ⟨hlong, rfl⟩, toRecord_eq_error_iff.mpr ⟨hlong', rfl⟩,
      h.length_value_eq]
    exact .error _

theorem encodeAll_related (h : List.Forall₂ Resembles ms ms') :
    Related (fun _ _ => True) (encodeAll ms) (encodeAll ms') := by
  induction h with
  | nil => exact .ok trivial
  | cons hm _ ih =>
    exact hm.toRecord_related.bind fun _ _ _ => ih.bind fun _ _ _ => .ok trivial

end Module.Resembles

/-! ## Lists of records and packets -/

/-- The records of modules that resemble each other. -/
def RecordList.Resembles (l l' : RecordList) : Prop :=
  ∃ ms ms', ofModules ms = .ok l ∧ ofModules ms' = .ok l' ∧
    List.Forall₂ Module.Resembles ms ms'

theorem RecordList.Resembles.length_eq {l l' : RecordList} (h : l.Resembles l') :
    l'.bytes.length = l.bytes.length := by
  obtain ⟨ms, ms', hl, hl', hms⟩ := h
  rw [(ofModules_eq_ok_iff.mp hl).2, (ofModules_eq_ok_iff.mp hl').2,
    Module.Resembles.length_frames_eq hms]

theorem RecordList.ofModules_related {ms ms' : List Module}
    (h : List.Forall₂ Module.Resembles ms ms') :
    Related Resembles (ofModules ms) (ofModules ms') := by
  have hoctets := Module.Resembles.encodeAll_related h
  rw [← map_bytes_ofModules, ← map_bytes_ofModules] at hoctets
  cases hl : ofModules ms with
  | error e =>
    cases hl' : ofModules ms' with
    | error e' =>
      rw [hl, hl'] at hoctets
      cases hoctets
      exact .error e
    | ok l' =>
      rw [hl, hl'] at hoctets
      cases hoctets
  | ok l =>
    cases hl' : ofModules ms' with
    | error e' =>
      rw [hl, hl'] at hoctets
      cases hoctets
    | ok l' => exact .ok ⟨ms, ms', hl, hl', h⟩

/-- The same packet; or answers with the same header, whose records resemble each other, each with
its own checksum. -/
inductive Packet.Resembles : Packet → Packet → Prop where
  | same (p : Packet) : Resembles p p
  | answers (routing : Routing) {l l' : RecordList} (h : l.Resembles l') :
      Resembles (.sealed .getConfiguration routing (.configurationAnswer l))
        (.sealed .getConfiguration routing (.configurationAnswer l'))

theorem Packet.make_related {l l' : RecordList} (h : l.Resembles l') (routing : Routing) :
    Related Resembles (make .getConfiguration routing (.configurationAnswer l))
      (make .getConfiguration routing (.configurationAnswer l')) := by
  have hsize : (body .getConfiguration routing (.configurationAnswer l')).length =
      (body .getConfiguration routing (.configurationAnswer l)).length := by
    simp only [body, Payload.encode, List.length_cons, List.length_append, h.length_eq]
  have hfits : (Payload.configurationAnswer l').fits .getConfiguration routing =
      (Payload.configurationAnswer l).fits .getConfiguration routing := rfl
  unfold make
  simp only [hsize, hfits]
  split
  · exact .error _
  · split
    · exact .error _
    · exact .ok (.answers routing h)

/-! ## Routines -/

/-- What a node in another mode looks at. -/
def Context.inMode (ctx : Context) (mode : Mode) : Context := { ctx with activeMode := mode }

theorem ModeGraph.makeModeList_related (g : ModeGraph) (mode mode' : Mode) :
    Related (fun l l' : ModeList => l'.modes = l.modes)
      (ModeList.make g.keys (UInt8.ofNat ((g.keys.idxOf? mode).getD 0)))
      (ModeList.make g.keys (UInt8.ofNat ((g.keys.idxOf? mode').getD 0))) := by
  cases hfirst : first? g with
  | none =>
    have hkeys : g.keys = [] := List.head?_eq_none_iff.mp hfirst
    rw [hkeys]
    exact .error _
  | some first =>
    obtain ⟨l, hl⟩ := exists_makeModeList hfirst mode
    obtain ⟨l', hl'⟩ := exists_makeModeList hfirst mode'
    rw [hl, hl']
    exact .ok ((ModeList.make_eq_ok_iff.mp hl').1.trans (ModeList.make_eq_ok_iff.mp hl).1.symm)

section Routines

variable {σ : Type} [ConfigurationStore σ] (ctx : Context) (mode : Mode)

theorem Context.report_related (c : Configuration) (cache : HydrophoneUpdate) (code : ModuleCode) :
    Related (List.Forall₂ Module.Resembles) (ctx.report c cache code)
      ((ctx.inMode mode).report c cache code) := by
  cases code
  case modeList =>
    exact (c.graph.makeModeList_related _ _).bind fun _ _ h => .ok (.cons (.modeList h) .nil)
  all_goals exact .refl (fun _ => List.forall₂_same.mpr fun m _ => .same m) _

theorem Context.reportAll_related (c : Configuration) (cache : HydrophoneUpdate)
    (codes : List ModuleCode) :
    Related (List.Forall₂ Module.Resembles) (ctx.reportAll c cache codes)
      ((ctx.inMode mode).reportAll c cache codes) := by
  induction codes with
  | nil => exact .ok .nil
  | cons code codes ih =>
    exact (ctx.report_related mode c cache code).bind fun _ _ hfirst =>
      ih.bind fun _ _ hrest => .ok (List.rel_append hfirst hrest)

namespace Routine

theorem answerQuery_related (mem : Memory σ) (request : Packet) :
    Related Packet.Resembles (answerQuery ctx mem request)
      (answerQuery (ctx.inMode mode) mem request) := by
  unfold answerQuery
  split
  · rename_i codes _
    refine .bind_right _ fun _ => .bind_right _ fun c => ?_
    refine (ctx.reportAll_related mode c mem.cache codes).bind fun _ _ hms => ?_
    exact (RecordList.ofModules_related hms).bind fun _ _ hl => Packet.make_related hl _
  · exact .error _

/-- The other routines do not look at the mode. -/
theorem run_related (r : Routine) (mem : Memory σ) (request : Option Packet) :
    Related Packet.Resembles (r.run ctx mem request).1
      (r.run (ctx.inMode mode) mem request).1 := by
  cases request with
  | none => cases r <;> exact .refl .same _
  | some p =>
    cases r
    case reportConfiguration => exact answerQuery_related ctx mode mem p
    all_goals exact .refl .same _

end Routine

theorem Dispatcher.answer_related (d : Dispatcher) (mem : Memory σ) (p : Packet) :
    (d.answer ctx mem p).1.Resembles (d.answer (ctx.inMode mode) mem p).1 := by
  unfold answer
  cases d.routine? p.opcode with
  | none => exact .same _
  | some r =>
    have hrun := r.run_related ctx mode mem (some p)
    cases hx : r.run ctx mem (some p) with
    | mk result mem' =>
      cases hy : r.run (ctx.inMode mode) mem (some p) with
      | mk result' mem'' =>
        rw [hx, hy] at hrun
        simp only [hx, hy]
        cases hrun with
        | ok h => exact h
        | error e => exact .same _

end Routines

end AcousticNode

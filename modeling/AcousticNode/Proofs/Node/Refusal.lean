import AcousticNode.Node.Dispatcher
import AcousticNode.Proofs.Packet.Parts
import AcousticNode.Proofs.Payload.Faults
import AcousticNode.Store.File

/-!
# Who is refused

Two routines answer the shore only.  They are the only ones to hold a request against its sender,
and they do so exactly for questions from elsewhere: every other failure, of a payload, of the
store or of the cache, says nothing about who asked.

* `ImpartialStore` : stores that know no senders;
* `refuses_iff` : what the routine of an operation code holds against the sender.
-/

set_option autoImplicit false

namespace AcousticNode

open Outcome
open ConfigurationStore (load save)

/-! ## Impartial steps -/

/-- A step that never fails because of the sender. -/
def Impartial {α : Type} (x : Except Fault α) : Prop :=
  ∀ e, x = .error e → Dispatcher.reportOf e = .invalidPayload

namespace Impartial

variable {α β : Type}

theorem ok (a : α) : Impartial (.ok a) := by
  intro e h
  cases h

theorem error {e : Fault} (h : Dispatcher.reportOf e = .invalidPayload) :
    Impartial (.error e : Except Fault α) := by
  intro e' h'
  cases h'
  exact h

theorem bind {x : Except Fault α} {f : α → Except Fault β} (hx : Impartial x)
    (hf : ∀ a, Impartial (f a)) : Impartial (x >>= f) := by
  intro e he
  rcases bind_eq_error.mp he with he | ⟨a, _, he⟩
  · exact hx e he
  · exact hf a e he

/-- Octets have no sender. -/
theorem of_contents {x : Except Fault α} (h : Contents x) : Impartial x := by
  intro e he
  have hblame := h e he
  cases e
  case forbiddenSender => cases hblame
  all_goals rfl

end Impartial

theorem Packet.make_impartial (op : Opcode) (routing : Routing) (payload : Payload) :
    Impartial (make op routing payload) := by
  unfold make
  simp only
  split
  · exact .error rfl
  · split
    · exact .error rfl
    · exact .ok _

theorem requireEmpty_impartial (request : Option Packet) : Impartial (requireEmpty request) := by
  unfold requireEmpty
  split
  · exact .ok ()
  · split
    · exact .ok ()
    · exact .error rfl

namespace HydrophoneUpdate

theorem need_impartial {α : Type} (aspect : Aspect) (held : Option α) :
    Impartial (need aspect held) := by
  cases held with
  | none => exact .error rfl
  | some a => exact .ok a

theorem demand_impartial {α : Type} (asked : Bool) (aspect : Aspect) (held : Option α) :
    Impartial (demand asked aspect held) := by
  unfold demand
  split
  · exact .error rfl
  · exact .ok _

theorem complete_impartial (cache : HydrophoneUpdate) : Impartial cache.complete :=
  (need_impartial _ _).bind fun _ => (need_impartial _ _).bind fun _ =>
    (need_impartial _ _).bind fun _ => (need_impartial _ _).bind fun _ => .ok _

theorem select_impartial (cache : HydrophoneUpdate) (mask : AspectMask) :
    Impartial (cache.select mask) :=
  (demand_impartial _ _ _).bind fun _ => (demand_impartial _ _ _).bind fun _ =>
    (demand_impartial _ _ _).bind fun _ => (demand_impartial _ _ _).bind fun _ => .ok _

end HydrophoneUpdate

namespace Configuration

theorem check_impartial (c : Configuration) : Impartial c.check := by
  unfold check
  cases c.validate with
  | ok _ => exact .ok ()
  | error flaw => exact .error rfl

theorem apply_impartial (c : Configuration) (m : Module) : Impartial (c.apply m) := by
  cases m
  case network => exact .ok _
  case modeGraph => exact .ok _
  case reporting r =>
    simp only [apply]
    split <;> exact .ok _
  all_goals exact .error rfl

theorem applyAll_impartial (c : Configuration) (ms : List Module) : Impartial (c.applyAll ms) := by
  induction ms generalizing c with
  | nil => exact .ok c
  | cons m ms ih => exact (c.apply_impartial m).bind ih

theorem withModules_impartial (c : Configuration) (ms : List Module) :
    Impartial (c.withModules ms) :=
  (c.applyAll_impartial ms).bind fun updated => updated.check_impartial.bind fun _ => .ok updated

end Configuration

theorem Module.encodeAll_impartial (ms : List Module) : Impartial (encodeAll ms) := by
  induction ms with
  | nil => exact .ok []
  | cons m ms ih =>
    have hrecord : Impartial m.toRecord := by
      unfold toRecord Record.make
      split
      · exact .ok _
      · exact .error rfl
    exact hrecord.bind fun _ => ih.bind fun _ => .ok _

theorem RecordList.ofModules_impartial (ms : List Module) : Impartial (ofModules ms) := by
  unfold ofModules
  split
  · exact .ok _
  · rename_i e he
    exact .error (Module.encodeAll_impartial ms e he)

namespace Context

open HydrophoneUpdate (need_impartial complete_impartial)

theorem report_impartial (ctx : Context) (c : Configuration) (cache : HydrophoneUpdate)
    (code : ModuleCode) : Impartial (ctx.report c cache code) := by
  cases code <;> rw [report]
  case modeList =>
    have hmake : ∀ modes index, Impartial (ModeList.make modes index) := by
      intro modes index
      unfold ModeList.make
      split
      · exact .ok _
      · exact .error rfl
    exact (hmake _ _).bind fun _ => .ok _
  case acoustics => exact (complete_impartial cache).bind fun _ => .ok _
  case hydrophone => exact (complete_impartial cache).bind fun _ => .ok _
  case hydrophoneStatus => exact (need_impartial _ _).bind fun _ => .ok _
  case hydrophoneLogging => exact (need_impartial _ _).bind fun _ => .ok _
  case hydrophoneStreaming => exact (need_impartial _ _).bind fun _ => .ok _
  case hydrophoneStats => exact (need_impartial _ _).bind fun _ => .ok _
  all_goals exact .ok _

theorem reportAll_impartial (ctx : Context) (c : Configuration) (cache : HydrophoneUpdate)
    (codes : List ModuleCode) : Impartial (ctx.reportAll c cache codes) := by
  induction codes with
  | nil => exact .ok []
  | cons code codes ih =>
    exact (ctx.report_impartial c cache code).bind fun _ => ih.bind fun _ => .ok _

end Context

/-! ## Stores -/

/-- A store whose loads and saves never fail because of a sender. -/
class ImpartialStore (σ : Type) [ConfigurationStore σ] : Prop where
  load_impartial : ∀ s : σ, Impartial (load s)
  save_impartial : ∀ (s : σ) (c : Configuration), Impartial (save s c).1

instance : ImpartialStore MemoryStore where
  load_impartial s := .ok s.config
  save_impartial s c := by
    simp only [save]
    split
    · exact .error rfl
    · exact .ok ()

theorem Configuration.ofText_impartial (s : String) : Impartial (ofText s) := by
  unfold ofText
  split
  · exact .error rfl
  · split
    · exact .error rfl
    · rename_i d _
      have hdocument : Impartial
          (d.toConfiguration.mapError fun flaw => Fault.document (some flaw)) := by
        cases d.toConfiguration with
        | ok c => exact .ok c
        | error flaw => exact .error rfl
      refine hdocument.bind fun c => ?_
      split
      · exact .ok c
      · exact .error rfl

instance : ImpartialStore FileStore where
  load_impartial s := by
    simp only [load, FileStore.load]
    split
    · exact .ok _
    · exact .error rfl
    · split
      · exact .error rfl
      · exact Configuration.ofText_impartial _
  save_impartial s c := by
    simp only [save, FileStore.save]
    split
    · rename_i e he
      exact .error (c.check_impartial e he)
    · split
      · exact .error rfl
      · split
        · exact .error rfl
        · exact .ok ()

/-! ## Routines -/

/-- A question for the shore only that comes from elsewhere.  What is addressed to the shore is
not a question but an answer. -/
structure Packet.IsForeignQuestion (p : Packet) : Prop where
  question : p.opcode = .getConfiguration ∨ p.opcode = .getHydrophone
  receiver_ne : p.routing.receiver ≠ .backend
  sender_ne : p.routing.sender ≠ .backend

/-- A failure that is held against the sender. -/
def Refuses {α : Type} (x : Except Fault α) : Prop :=
  ∃ e, x = .error e ∧ Dispatcher.reportOf e = .invalidSender

theorem Impartial.not_refuses {α : Type} {x : Except Fault α} (h : Impartial x) : ¬ Refuses x := by
  rintro ⟨e, he, hreport⟩
  rw [h e he] at hreport
  cases hreport

variable {σ : Type} [ConfigurationStore σ]

/-- A check of the sender in front of an impartial step. -/
theorem refuses_requireBackend_iff {α : Type} {request : Packet} {f : Unit → Except Fault α}
    (hf : ∀ u, Impartial (f u)) :
    Refuses (requireBackend request >>= f) ↔ request.routing.sender ≠ .backend := by
  unfold requireBackend
  by_cases hsender : request.routing.sender = .backend
  · have hbackend : request.routing.sender.isBackend = true := decide_eq_true hsender
    rw [hbackend]
    exact iff_of_false (hf ()).not_refuses (not_not_intro hsender)
  · have hbackend : request.routing.sender.isBackend = false := decide_eq_false hsender
    rw [hbackend]
    exact iff_of_true ⟨_, rfl, rfl⟩ hsender

namespace Routine

theorem answerBasicStatus_impartial (ctx : Context) (request : Option Packet) :
    Impartial (answerBasicStatus ctx request) :=
  (requireEmpty_impartial request).bind fun _ => Packet.make_impartial _ _ _

theorem answerCompleteStatus_impartial (ctx : Context) (cache : HydrophoneUpdate)
    (request : Option Packet) : Impartial (answerCompleteStatus ctx cache request) :=
  (requireEmpty_impartial request).bind fun _ => cache.complete_impartial.bind fun _ =>
    Packet.make_impartial _ _ _

theorem answerChange_impartial [ImpartialStore σ] (ctx : Context) (mem : Memory σ)
    (request : Packet) : Impartial (answerChange ctx mem request).1 := by
  unfold answerChange
  split
  · rename_i records _
    have hupdated : Impartial (updatedConfiguration mem.store records) :=
      (Impartial.of_contents (Module.decodeAll_contents _)).bind fun ms =>
        (ImpartialStore.load_impartial mem.store).bind fun c => c.withModules_impartial ms
    split
    · rename_i e he
      exact .error (hupdated e he)
    · rename_i updated _
      have hsave := ImpartialStore.save_impartial mem.store updated
      split
      · rename_i e store heq
        rw [heq] at hsave
        exact .error (hsave e rfl)
      · dsimp only
        exact Packet.make_impartial _ _ _
  · exact .error rfl

omit [ConfigurationStore σ] in
theorem answerStore_impartial (ctx : Context) (mem : Memory σ) (request : Packet) :
    Impartial (answerStore ctx mem request).1 := by
  unfold answerStore
  split
  · dsimp only
    exact Packet.make_impartial _ _ _
  · exact .error rfl

/-! ## Questions -/

theorem not_isForeignQuestion_of_uplink {request : Packet}
    (h : request.routing.isUplink = true) : ¬ request.IsForeignQuestion :=
  fun hforeign => hforeign.receiver_ne (of_decide_eq_true h)

theorem isForeignQuestion_iff {request : Packet} (h : request.routing.isUplink = false)
    (hop : request.opcode = .getConfiguration ∨ request.opcode = .getHydrophone) :
    request.IsForeignQuestion ↔ request.routing.sender ≠ .backend :=
  ⟨fun hforeign => hforeign.sender_ne, fun hsender => ⟨hop, of_decide_eq_false h, hsender⟩⟩

/-- Whatever comes with the operation code of this routine is a question, or is for the shore. -/
theorem refuses_answerQuery_iff [ImpartialStore σ] {request : Packet}
    (hfits : request.payload.fits request.opcode request.routing = true)
    (hop : request.opcode = .getConfiguration) (ctx : Context) (mem : Memory σ) :
    Refuses (answerQuery ctx mem request) ↔ request.IsForeignQuestion := by
  rw [hop] at hfits
  unfold answerQuery
  cases hpayload : request.payload <;> rw [hpayload] at hfits
  case configurationQuery codes =>
    have hdown : request.routing.isUplink = false := by simpa [Payload.fits] using hfits
    rw [isForeignQuestion_iff hdown (.inl hop)]
    refine refuses_requireBackend_iff fun _ => ?_
    refine (ImpartialStore.load_impartial mem.store).bind fun c => ?_
    refine (ctx.reportAll_impartial c mem.cache codes).bind fun ms => ?_
    exact (RecordList.ofModules_impartial ms).bind fun _ => Packet.make_impartial _ _ _
  case configurationAnswer records =>
    have hup : request.routing.isUplink = true := by simpa [Payload.fits] using hfits
    exact iff_of_false (Impartial.error rfl).not_refuses (not_isForeignQuestion_of_uplink hup)
  all_goals cases hfits

theorem refuses_answerFetch_iff {request : Packet}
    (hfits : request.payload.fits request.opcode request.routing = true)
    (hop : request.opcode = .getHydrophone) (ctx : Context) (cache : HydrophoneUpdate) :
    Refuses (answerFetch ctx cache request) ↔ request.IsForeignQuestion := by
  rw [hop] at hfits
  unfold answerFetch
  cases hpayload : request.payload <;> rw [hpayload] at hfits
  case hydrophoneQuery mask =>
    have hdown : request.routing.isUplink = false := by simpa [Payload.fits] using hfits
    rw [isForeignQuestion_iff hdown (.inr hop)]
    exact refuses_requireBackend_iff fun _ =>
      (cache.select_impartial mask).bind fun _ => Packet.make_impartial _ _ _
  case hydrophoneAnswer update =>
    have hup : request.routing.isUplink = true := by simpa [Payload.fits] using hfits
    exact iff_of_false (Impartial.error rfl).not_refuses (not_isForeignQuestion_of_uplink hup)
  all_goals cases hfits

/-- The routine of an operation code refuses questions from elsewhere, and nothing else. -/
theorem refuses_iff [ImpartialStore σ] {request : Packet} {r : Routine}
    (hfits : request.payload.fits request.opcode request.routing = true)
    (h : Dispatcher.standard.routine? request.opcode = some r) (ctx : Context) (mem : Memory σ) :
    Refuses (r.run ctx mem (some request)).1 ↔ request.IsForeignQuestion := by
  have hother : request.opcode ≠ .getConfiguration → request.opcode ≠ .getHydrophone →
      ¬ request.IsForeignQuestion := by
    rintro hget hfetch ⟨hop | hop, _, _⟩
    · exact hget hop
    · exact hfetch hop
  cases hop : request.opcode <;> rw [hop] at h hother <;> cases h
  case getConfiguration => exact refuses_answerQuery_iff hfits hop ctx mem
  case getHydrophone => exact refuses_answerFetch_iff hfits hop ctx mem.cache
  case basicStatus =>
    exact iff_of_false (answerBasicStatus_impartial ctx (some request)).not_refuses
      (hother nofun nofun)
  case completeStatus =>
    exact iff_of_false (answerCompleteStatus_impartial ctx mem.cache (some request)).not_refuses
      (hother nofun nofun)
  case setConfiguration =>
    exact iff_of_false (answerChange_impartial ctx mem request).not_refuses (hother nofun nofun)
  case setHydrophone =>
    exact iff_of_false (answerStore_impartial ctx mem request).not_refuses (hother nofun nofun)

end Routine

end AcousticNode

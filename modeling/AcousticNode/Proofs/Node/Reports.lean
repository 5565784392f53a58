import AcousticNode.Proofs.Node.Recollection
import AcousticNode.Proofs.Node.Schedule

/-!
# Scheduled reports

Which minutes bring a report, and what is in it.  A report is due in a minute if the entry for the
mode has a period that has passed since the minute in which a report was due last.  That minute
counts for all modes, and it counts whether or not the report could be made.  Between the minutes
frames come in, links are drained, and anyone may change what is stored and what the peripherals
read; the clock that gives the minutes may jump and go back.

* `isSome_report_iff`, `makes_of_report` : one minute;
* `Diary.Faithful.step` : what a node keeps in mind of the minutes behind it;
* `diary_regular` : every minute of every run, and how far apart reports are.
-/

set_option autoImplicit false

namespace AcousticNode

open Outcome

variable {σ : Type} [ConfigurationStore σ]

/-! ## What a report says -/

theorem Packet.make_basicReport (routing : Routing) (report : BasicReport) :
    make .basicStatus routing (.basicReport report) =
      .ok (sealed .basicStatus routing (.basicReport report)) := by
  refine make_eq_ok_iff.mpr ⟨rfl, ?_, rfl⟩
  rw [Payload.size]
  decide

namespace ReportType

/-- A packet to the shore that reports in full, if that is the type of the report, or in brief. -/
structure Makes (t : ReportType) (localAddress : Address) (peripherals : Peripherals)
    (cache : HydrophoneUpdate) (p : Packet) : Prop where
  routing_eq : p.routing = ⟨localAddress, .backend, 3⟩
  complete : t = .complete → ∃ h : Hydrophone, cache = h.update ∧
    p.Conveys .completeStatus (.completeReport
      ⟨peripherals.battery, .unknown, peripherals.location, .unknown, h⟩)
  brief : t ≠ .complete → p.Conveys .basicStatus
    (.basicReport ⟨peripherals.battery, peripherals.location, peripherals.clock⟩)

variable (t : ReportType) (ctx : Context) (mem : Memory σ)

/-- What the standard routine for a type of report comes to. -/
def outcome : Except Fault Packet := (Dispatcher.standard.run t.opcode ctx mem none).1

theorem outcome_complete_eq_ok_iff {p : Packet} : complete.outcome ctx mem = .ok p ↔
    ∃ h : Hydrophone, mem.cache = h.update ∧ Packet.make .completeStatus
      (.toBackend ctx.localAddress) (.completeReport
        ⟨ctx.peripherals.battery, .unknown, ctx.peripherals.location, .unknown, h⟩) = .ok p :=
  Routine.answerCompleteStatus_eq_ok_iff ctx mem.cache rfl p

variable {t}

/-- A report in brief can always be made. -/
theorem outcome_of_brief (h : t ≠ .complete) : t.outcome ctx mem =
    .ok (.sealed .basicStatus (.toBackend ctx.localAddress) (.basicReport
      ⟨ctx.peripherals.battery, ctx.peripherals.location, ctx.peripherals.clock⟩)) := by
  have hrun : Routine.answerBasicStatus ctx none = _ := Packet.make_basicReport _ _
  cases t with
  | complete => exact absurd rfl h
  | basic => exact hrun
  | summary => exact hrun

theorem exists_outcome_iff : (∃ p, t.outcome ctx mem = .ok p) ↔
    (t = .complete → ∀ a, mem.cache.holds a = true) := by
  by_cases ht : t = .complete
  · subst ht
    simp only [outcome_complete_eq_ok_iff, ← HydrophoneUpdate.exists_update_iff, forall_const]
    constructor
    · rintro ⟨_, h, hknown, _⟩
      exact ⟨h, hknown⟩
    · rintro ⟨h, hknown⟩
      exact ⟨_, h, hknown, Packet.make_completeReport _ _⟩
  · exact ⟨fun _ h => absurd h ht, fun _ => ⟨_, outcome_of_brief ctx mem ht⟩⟩

theorem makes_of_outcome {p : Packet} (h : t.outcome ctx mem = .ok p) :
    t.Makes ctx.localAddress ctx.peripherals mem.cache p := by
  by_cases ht : t = .complete
  · subst ht
    obtain ⟨hydrophone, hknown, hmade⟩ := (outcome_complete_eq_ok_iff ctx mem).mp h
    have hrouting : p.routing = .toBackend ctx.localAddress := by
      obtain ⟨_, _, rfl⟩ := Packet.make_eq_ok_iff.mp hmade
      rfl
    exact ⟨hrouting, fun _ => ⟨hydrophone, hknown, Packet.conveys_of_make hmade⟩,
      fun hne => absurd rfl hne⟩
  · obtain rfl := Except.ok.inj ((outcome_of_brief ctx mem ht).symm.trans h)
    exact ⟨rfl, fun h => absurd h ht, fun _ => Packet.conveys_of_make (Packet.make_basicReport _ _)⟩

end ReportType

/-! ## One minute -/

/-- A minute of the schedule, as a node meets it. -/
structure Beat (σ : Type) where
  node : Node σ
  minute : Nat

namespace Beat

/-- The node after the minute. -/
def after (b : Beat σ) : Node σ := (b.node.tick b.minute).2

/-- The report that the minute brings. -/
def report (b : Beat σ) : Option Packet := (b.node.tick b.minute).1

/-- What the schedule of the Iridium link has for the mode that the minute leads to. -/
def planned? (b : Beat σ) : Option ReportEntry :=
  match b.node.configuration with
  | .ok c => c.iridium.entries.get? b.after.agenda.mode
  | .error _ => none

/-- Whether the period of the entry has passed since a minute before.  If the clock has gone back,
no time has passed. -/
def isDue (b : Beat σ) (last : Nat) : Bool :=
  match b.planned? with
  | some e => decide (e.period.toNat ≤ b.minute - last)
  | none => false

/-- The minute in which a report was due last, or zero.  The latest beat stands in front. -/
def lastDue : List (Beat σ) → Nat
  | [] => 0
  | b :: earlier => if b.isDue (lastDue earlier) then b.minute else lastDue earlier

variable {b : Beat σ} {c : Configuration}

theorem isDue_iff {last : Nat} :
    b.isDue last = true ↔ ∃ e, b.planned? = some e ∧ e.period.toNat ≤ b.minute - last := by
  unfold isDue
  cases b.planned? <;> simp

theorem planned?_of_loaded (hc : b.node.configuration = .ok c) :
    b.planned? = c.iridium.entries.get? (b.node.agenda.advance c.graph).mode := by
  simp only [planned?, hc, after, Node.snd_tick_of_loaded hc, Agenda.mode_countCycle,
    Agenda.mode_note]

theorem planned?_of_unloaded {e : Fault} (hc : b.node.configuration = .error e) :
    b.planned? = none := by
  simp only [planned?, hc]

theorem exists_loaded {e : ReportEntry} (he : b.planned? = some e) :
    ∃ c, b.node.configuration = .ok c := by
  cases hc : b.node.configuration with
  | ok c => exact ⟨c, rfl⟩
  | error f =>
    rw [planned?_of_unloaded hc] at he
    cases he

/-- What a node takes to be due is what is due since its last report. -/
theorem due?_eq (hc : b.node.configuration = .ok c) :
    (b.node.agenda.advance c.graph).due? c.iridium.entries b.minute =
      if b.isDue b.node.agenda.lastReport then b.planned?.map (·.report) else none := by
  rw [Agenda.due?, isDue, planned?_of_loaded hc, Agenda.lastReport_advance]
  cases c.iridium.entries.get? (b.node.agenda.advance c.graph).mode <;> simp

theorem lastReport_after (b : Beat σ) : b.after.agenda.lastReport =
    if b.isDue b.node.agenda.lastReport then b.minute else b.node.agenda.lastReport := by
  cases hc : b.node.configuration with
  | ok c =>
    rw [after, Node.snd_tick_of_loaded hc, Agenda.lastReport_countCycle, Agenda.lastReport_note,
      due?_eq hc, Agenda.lastReport_advance]
    split
    · rename_i hdue
      obtain ⟨e, he, _⟩ := isDue_iff.mp hdue
      rw [he]
      rfl
    · rfl
  | error e =>
    rw [after, Node.tick_of_unloaded hc, isDue, planned?_of_unloaded hc]
    rfl

theorem report_eq_some_iff (hd : b.node.dispatcher = .standard) {p : Packet} :
    b.report = some p ↔ b.isDue b.node.agenda.lastReport = true ∧
      ∃ c e, b.node.configuration = .ok c ∧ b.planned? = some e ∧
        e.report.outcome ⟨c.localAddress, b.after.agenda.mode, b.node.peripherals⟩ b.node.memory =
          .ok p := by
  cases hc : b.node.configuration with
  | ok c =>
    have hmode : b.after.agenda.mode = (b.node.agenda.advance c.graph).mode := by
      simp only [after, Node.snd_tick_of_loaded hc, Agenda.mode_countCycle, Agenda.mode_note]
    rw [report, Node.fst_tick_of_loaded hc, due?_eq hc, hd, hmode]
    cases b.isDue b.node.agenda.lastReport with
    | false => simp
    | true =>
      simp only [if_true, Option.bind_eq_some_iff, Option.map_eq_some_iff, toOption_eq_some,
        true_and]
      constructor
      · rintro ⟨_, ⟨e, he, rfl⟩, hrun⟩
        exact ⟨c, e, rfl, he, hrun⟩
      · rintro ⟨c', e, hc', he, hrun⟩
        cases hc'
        exact ⟨_, ⟨e, he, rfl⟩, hrun⟩
  | error e =>
    simp [report, Node.tick_of_unloaded hc]

/-- What a minute brings, if the minute in which a report was due last is `last`. -/
structure Kept (b : Beat σ) (last : Nat) : Prop where
  isSome_report_iff : b.report.isSome = true ↔ b.isDue last = true ∧
    ∃ e, b.planned? = some e ∧
      (e.report = .complete → ∀ a, b.node.memory.cache.holds a = true)
  makes_of_report : ∀ p, b.report = some p → ∃ c e, b.node.configuration = .ok c ∧
    b.planned? = some e ∧ e.report.Makes c.localAddress b.node.peripherals b.node.memory.cache p

theorem kept (hd : b.node.dispatcher = .standard) : b.Kept b.node.agenda.lastReport where
  isSome_report_iff := by
    simp only [Option.isSome_iff_exists, report_eq_some_iff hd]
    constructor
    · rintro ⟨p, hdue, c, e, _, he, hrun⟩
      exact ⟨hdue, e, he, (ReportType.exists_outcome_iff _ _).mp ⟨p, hrun⟩⟩
    · rintro ⟨hdue, e, he, hcached⟩
      obtain ⟨c, hc⟩ := exists_loaded he
      obtain ⟨p, hrun⟩ := (ReportType.exists_outcome_iff
        ⟨c.localAddress, b.after.agenda.mode, b.node.peripherals⟩ b.node.memory).mpr hcached
      exact ⟨p, hdue, c, e, hc, he, hrun⟩
  makes_of_report p hp := by
    obtain ⟨_, c, e, hc, he, hrun⟩ := (report_eq_some_iff hd).mp hp
    exact ⟨c, e, hc, he, ReportType.makes_of_outcome _ _ hrun⟩

/-! ## How far apart reports are -/

/-- Minutes that never go back. -/
def Ascending (beats : List (Beat σ)) : Prop :=
  beats.Pairwise fun later earlier => earlier.minute ≤ later.minute

theorem le_lastDue {later earlier : List (Beat σ)} (hdue : b.isDue (lastDue earlier) = true)
    (h : ∀ b' ∈ later, b.minute ≤ b'.minute) : b.minute ≤ lastDue (later ++ b :: earlier) := by
  induction later with
  | nil =>
    have hlast : lastDue (b :: earlier) = b.minute := if_pos hdue
    exact Nat.le_of_eq hlast.symm
  | cons b' later ih =>
    rw [List.cons_append, lastDue]
    split
    · exact h b' List.mem_cons_self
    · exact ih fun b'' hmem => h b'' (List.mem_cons_of_mem b' hmem)

/-- A minute in which a report is due is a period after every earlier one in which one was due. -/
theorem add_period_le {between earlier : List (Beat σ)} {b' : Beat σ} {e : ReportEntry}
    (hascending : Ascending (b' :: (between ++ b :: earlier)))
    (hdue : b.isDue (lastDue earlier) = true)
    (hdue' : b'.isDue (lastDue (between ++ b :: earlier)) = true) (he : b'.planned? = some e) :
    b.minute + e.period.toNat ≤ b'.minute := by
  obtain ⟨hle, hascending'⟩ := List.pairwise_cons.mp hascending
  have hbefore : b.minute ≤ b'.minute := hle b (by simp)
  have hbetween : ∀ b'' ∈ between, b.minute ≤ b''.minute :=
    fun b'' hmem => (List.pairwise_append.mp hascending').2.2 b'' hmem b List.mem_cons_self
  have hlast : b.minute ≤ lastDue (between ++ b :: earlier) := le_lastDue hdue hbetween
  obtain ⟨e', he', hperiod⟩ := isDue_iff.mp hdue'
  obtain rfl : e' = e := Option.some.inj (he'.symm.trans he)
  omega

end Beat

/-! ## Runs -/

/-- What happens to a node and around it. -/
inductive Happening (σ : Type) where
  | event (e : Event)
  /-- Somebody else changes what is stored, and the peripherals read something else. -/
  | change (store : σ) (peripherals : Peripherals)

/-- A node and the minutes behind it, the latest one in front. -/
structure Diary (σ : Type) where
  node : Node σ
  beats : List (Beat σ)

namespace Diary

/-- A minute is written down; everything else is not. -/
def step (d : Diary σ) : Happening σ → Diary σ
  | .event (.tick minute) => ⟨(d.node.tick minute).2, ⟨d.node, minute⟩ :: d.beats⟩
  | .event e => ⟨d.node.after e, d.beats⟩
  | .change store peripherals =>
    ⟨{ d.node with memory := ⟨store, d.node.memory.cache⟩, peripherals := peripherals }, d.beats⟩

theorem step_of_not_tick (d : Diary σ) {e : Event} (h : e.isTick = false) :
    d.step (.event e) = ⟨d.node.after e, d.beats⟩ := by
  cases e with
  | frame raw => rfl
  | drain link refused => rfl
  | tick minute => cases h

/-- What is written down of a node with the standard routines is what the node keeps in mind. -/
structure Faithful (d : Diary σ) : Prop where
  dispatcher_eq : d.node.dispatcher = .standard
  lastReport_eq : d.node.agenda.lastReport = Beat.lastDue d.beats
  kept : ∀ b earlier, b :: earlier <:+ d.beats → b.Kept (Beat.lastDue earlier)

theorem Faithful.step {d : Diary σ} (h : d.Faithful) (happening : Happening σ) :
    (d.step happening).Faithful := by
  cases happening with
  | change store peripherals => exact ⟨h.dispatcher_eq, h.lastReport_eq, h.kept⟩
  | event e =>
    rcases d.node.after_cases e with ⟨minute, rfl⟩ | ⟨hnot, memory, heq⟩
    · refine ⟨?_, ?_, ?_⟩
      · exact (d.node.after_equipped (.tick minute)).dispatcher_eq.trans h.dispatcher_eq
      · have hafter := Beat.lastReport_after ⟨d.node, minute⟩
        rw [h.lastReport_eq] at hafter
        exact hafter
      · intro b earlier hsuffix
        rcases List.suffix_cons_iff.mp hsuffix with hhere | hbehind
        · obtain ⟨rfl, rfl⟩ := List.cons.inj hhere
          rw [← h.lastReport_eq]
          exact Beat.kept h.dispatcher_eq
        · exact h.kept b earlier hbehind
    · rw [d.step_of_not_tick hnot, heq]
      exact ⟨h.dispatcher_eq, h.lastReport_eq, h.kept⟩

/-- What the minutes behind a node have brought. -/
structure Regular (d : Diary σ) : Prop where
  kept : ∀ b earlier, b :: earlier <:+ d.beats → b.Kept (Beat.lastDue earlier)
  /-- A report that was due and could not be made keeps others away as well. -/
  consumed : Beat.Ascending d.beats → ∀ later b earlier, d.beats = later ++ b :: earlier →
    b.isDue (Beat.lastDue earlier) = true → ∀ b' ∈ later, b'.report.isSome = true →
      ∀ e, b'.planned? = some e → b.minute + e.period.toNat ≤ b'.minute
  apart : Beat.Ascending d.beats → d.beats.Pairwise fun b' b => b.report.isSome = true →
    b'.report.isSome = true → ∀ e, b'.planned? = some e → b.minute + e.period.toNat ≤ b'.minute

theorem Faithful.consumed {d : Diary σ} (h : d.Faithful) (hascending : Beat.Ascending d.beats)
    {later earlier : List (Beat σ)} {b b' : Beat σ} (hbeats : d.beats = later ++ b :: earlier)
    (hdue : b.isDue (Beat.lastDue earlier) = true) (hmem : b' ∈ later)
    (hreport : b'.report.isSome = true) {e : ReportEntry} (he : b'.planned? = some e) :
    b.minute + e.period.toNat ≤ b'.minute := by
  obtain ⟨after, between, rfl⟩ := List.append_of_mem hmem
  have hsuffix : b' :: (between ++ b :: earlier) <:+ d.beats := ⟨after, by simp [hbeats]⟩
  have hdue' := ((h.kept b' _ hsuffix).isSome_report_iff.mp hreport).1
  exact Beat.add_period_le (hascending.sublist hsuffix.sublist) hdue hdue' he

theorem Faithful.regular {d : Diary σ} (h : d.Faithful) : d.Regular where
  kept := h.kept
  consumed hascending _ _ _ hbeats hdue _ hmem hreport _ he :=
    h.consumed hascending hbeats hdue hmem hreport he
  apart hascending := by
    rw [List.pairwise_iff_getElem]
    intro i j hi hj hij hreport hreport' e he
    have hbeats : d.beats = d.beats.take j ++ d.beats[j] :: d.beats.drop (j + 1) := by simp
    have hmem : d.beats[i] ∈ d.beats.take j := List.mem_take_iff_getElem.mpr ⟨i, by omega, rfl⟩
    have hkept := h.kept d.beats[j] (d.beats.drop (j + 1)) ⟨d.beats.take j, hbeats.symm⟩
    exact h.consumed hascending hbeats (hkept.isSome_report_iff.mp hreport).1 hmem hreport' he

end Diary

namespace Node

/-- A node goes through what happens, and its minutes are written down. -/
def diary (n : Node σ) (happenings : List (Happening σ)) : Diary σ :=
  happenings.foldl Diary.step ⟨n, []⟩

theorem diary_faithful {n : Node σ} (hd : n.dispatcher = .standard)
    (hlast : n.agenda.lastReport = 0) (happenings : List (Happening σ)) :
    (n.diary happenings).Faithful := by
  have hboot : Diary.Faithful ⟨n, []⟩ := ⟨hd, hlast, fun b earlier h => by simp at h⟩
  unfold diary
  generalize (⟨n, []⟩ : Diary σ) = d at hboot ⊢
  induction happenings generalizing d with
  | nil => exact hboot
  | cons happening happenings ih => exact ih _ (hboot.step happening)

/-- **Reports keep to the schedule.**  Whatever happens to a node and around it, a minute brings a
report exactly if one is due and can be made, and brings the one that the schedule names.  If the
minutes never go back, a report comes a period or more after every earlier one, and as long after
every one that was due and could not be made. -/
theorem diary_regular {peripherals : Peripherals} {store : σ} {n : Node σ}
    (h : start peripherals store .standard = .ok n) (happenings : List (Happening σ)) :
    (n.diary happenings).Regular := by
  obtain ⟨c, first, _, _, _, rfl⟩ := start_eq_ok_iff.mp h
  exact (diary_faithful rfl rfl happenings).regular

/-- A full report that is due after ten minutes cannot be made.  Then brief ones are asked for,
every four minutes, and the first of them comes four minutes after the one that was not made. -/
theorem diary_regular_missed :
    let c := { Configuration.default with
      iridium := ⟨.iridium, Table.empty.insert 0 ⟨10, .complete⟩⟩ }
    let c' := { Configuration.default with
      iridium := ⟨.iridium, Table.empty.insert 0 ⟨4, .basic⟩⟩ }
    let n : Node MemoryStore := ⟨⟨⟨77, .charging⟩, ⟨⟨0⟩, ⟨0⟩⟩, 0, ⟨0⟩⟩, ⟨⟨c, false⟩, .empty⟩,
      .standard, ⟨0, 0, 0⟩⟩
    let d := n.diary [.event (.tick 10), .change ⟨c', false⟩ n.peripherals, .event (.tick 13),
      .event (.tick 14), .event (.tick 17)]
    start n.peripherals n.memory.store .standard = .ok n ∧
      d.beats.map (·.minute) = [17, 14, 13, 10] ∧
      d.beats.map (·.report.isSome) = [false, true, false, false] ∧
      Beat.Ascending d.beats ∧ d.Regular := by
  intro c c' n d
  have hstart : start n.peripherals n.memory.store .standard = .ok n := rfl
  refine ⟨hstart, rfl, by decide +kernel, ?_, diary_regular hstart _⟩
  rw [Beat.Ascending]
  decide +kernel

end Node

end AcousticNode

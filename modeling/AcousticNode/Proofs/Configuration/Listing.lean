import AcousticNode.Proofs.Configuration.Document
import Mathlib.Data.List.Permutation

/-!
# What a document lists is kept

A document lists the entries of four tables in any order.  It describes a configuration if and only
if no list names a key twice and the graph is closed; the configuration then has the listed
entries and no others, and its own document lists them by key.

* `toConfiguration_eq_ok_iff` : the configuration that a document describes;
* `exists_toConfiguration_iff` : the documents that describe one;
* `toConfiguration_lossless` : nothing that is listed is dropped or merged.
-/

set_option autoImplicit false

namespace AcousticNode

open Outcome

namespace Document

/-- No list names a key twice, and the graph has a mode and leads only to modes that it lists. -/
structure Consistent (d : Document) : Prop where
  routes_nodup : (d.routes.map (·.1)).Nodup
  graph_nodup : (d.graph.map (·.1)).Nodup
  lora_nodup : (d.lora.map (·.1)).Nodup
  iridium_nodup : (d.iridium.map (·.1)).Nodup
  inhabited : d.graph ≠ []
  closed : ∀ e ∈ d.graph, ∃ e' ∈ d.graph, e'.1 = e.2.next

/-- The document with each list by key. -/
def sorted (d : Document) : Document :=
  { d with
    routes := Table.sortByKey d.routes
    graph := Table.sortByKey d.graph
    lora := Table.sortByKey d.lora
    iridium := Table.sortByKey d.iridium }

/-- A configuration has the entries that a document lists, and what else the document says. -/
structure Describes (d : Document) (c : Configuration) : Prop extends c.Placed where
  localAddress_eq : c.localAddress = d.localAddress
  gateway_eq : c.gateway = d.gateway
  routes_perm : d.routes.Perm c.routes.entries
  graph_perm : d.graph.Perm c.graph.entries
  lora_perm : d.lora.Perm c.lora.entries.entries
  iridium_perm : d.iridium.Perm c.iridium.entries.entries

theorem toConfiguration_eq_ok_iff {d : Document} {c : Configuration} :
    d.toConfiguration = .ok c ↔ d.Describes c ∧ c.Valid := by
  rw [← Configuration.validate_eq_ok_iff]
  constructor
  · intro h
    obtain ⟨graph, hgraph, h⟩ := bind_eq_ok.mp h
    obtain ⟨routes, hroutes, h⟩ := bind_eq_ok.mp h
    obtain ⟨lora, hlora, h⟩ := bind_eq_ok.mp h
    obtain ⟨iridium, hiridium, h⟩ := bind_eq_ok.mp h
    obtain ⟨_, hvalidate, h⟩ := bind_eq_ok.mp h
    cases h
    exact ⟨⟨⟨rfl, rfl⟩, rfl, rfl, Table.ofDistinct_eq_ok_iff.mp hroutes,
      Table.ofDistinct_eq_ok_iff.mp hgraph, Table.ofDistinct_eq_ok_iff.mp hlora,
      Table.ofDistinct_eq_ok_iff.mp hiridium⟩, hvalidate⟩
  · rintro ⟨⟨hplaced, hlocal, hgateway, hroutes, hgraph, hlora, hiridium⟩, hvalidate⟩
    rw [← Configuration.placed_eq_iff.mpr hplaced] at hvalidate ⊢
    simp only [toConfiguration, Table.ofDistinct_eq_ok_iff.mpr hroutes,
      Table.ofDistinct_eq_ok_iff.mpr hgraph, Table.ofDistinct_eq_ok_iff.mpr hlora,
      Table.ofDistinct_eq_ok_iff.mpr hiridium, ← hlocal, ← hgateway, bind, Except.bind]
    exact bind_eq_ok.mpr ⟨(), hvalidate, rfl⟩

/-- The graph of a document is closed if the table of its modes is. -/
theorem closed_iff_of_perm {es : List (Mode × Transition)} {g : ModeGraph}
    (h : es.Perm g.entries) : (∀ e ∈ es, ∃ e' ∈ es, e'.1 = e.2.next) ↔
      ∀ mode t, g.get? mode = some t → ∃ t', g.get? t.next = some t' := by
  simp only [Table.get?_eq_some_iff, ← h.mem_iff]
  constructor
  · intro hclosed mode t ht
    obtain ⟨⟨mode', t'⟩, hmem, rfl⟩ := hclosed (mode, t) ht
    exact ⟨t', hmem⟩
  · rintro hclosed ⟨mode, t⟩ ht
    obtain ⟨t', ht'⟩ := hclosed mode t ht
    exact ⟨(t.next, t'), ht', rfl⟩

theorem Describes.valid_iff {d : Document} {c : Configuration} (h : d.Describes c) :
    c.Valid ↔ d.graph ≠ [] ∧ ∀ e ∈ d.graph, ∃ e' ∈ d.graph, e'.1 = e.2.next := by
  have hnil : d.graph = [] ↔ c.graph.entries = [] := by
    rw [← List.length_eq_zero_iff, h.graph_perm.length_eq, List.length_eq_zero_iff]
  rw [closed_iff_of_perm h.graph_perm, ne_eq, hnil]
  exact ⟨fun hvalid => ⟨hvalid.inhabited, hvalid.closed⟩,
    fun ⟨hinhabited, hclosed⟩ => ⟨h.toPlaced, hinhabited, hclosed⟩⟩

theorem exists_toConfiguration_iff {d : Document} :
    (∃ c, d.toConfiguration = .ok c) ↔ d.Consistent := by
  simp only [toConfiguration_eq_ok_iff]
  constructor
  · rintro ⟨c, hd, hvalid⟩
    obtain ⟨hinhabited, hclosed⟩ := hd.valid_iff.mp hvalid
    exact ⟨Table.exists_perm_iff.mp ⟨_, hd.routes_perm⟩,
      Table.exists_perm_iff.mp ⟨_, hd.graph_perm⟩, Table.exists_perm_iff.mp ⟨_, hd.lora_perm⟩,
      Table.exists_perm_iff.mp ⟨_, hd.iridium_perm⟩, hinhabited, hclosed⟩
  · intro h
    obtain ⟨routes, hroutes⟩ := Table.exists_perm_iff.mpr h.routes_nodup
    obtain ⟨graph, hgraph⟩ := Table.exists_perm_iff.mpr h.graph_nodup
    obtain ⟨lora, hlora⟩ := Table.exists_perm_iff.mpr h.lora_nodup
    obtain ⟨iridium, hiridium⟩ := Table.exists_perm_iff.mpr h.iridium_nodup
    have hd : d.Describes
        ⟨d.localAddress, routes, d.gateway, graph, ⟨.lora, lora⟩, ⟨.iridium, iridium⟩⟩ :=
      ⟨⟨rfl, rfl⟩, rfl, rfl, hroutes, hgraph, hlora, hiridium⟩
    exact ⟨_, hd, hd.valid_iff.mpr ⟨h.inhabited, h.closed⟩⟩

theorem toDocument_of_describes {d : Document} {c : Configuration} (h : d.Describes c) :
    c.toDocument = d.sorted := by
  simp only [Configuration.toDocument, sorted, h.localAddress_eq, h.gateway_eq,
    Table.entries_eq_sortByKey h.routes_perm, Table.entries_eq_sortByKey h.graph_perm,
    Table.entries_eq_sortByKey h.lora_perm, Table.entries_eq_sortByKey h.iridium_perm]

/-- **Nothing that a document lists is dropped or merged.**  A document describes a configuration
exactly if the keys of each of its lists are different and its graph is closed.  The configuration
is valid, each table has the entries of its list, and going back to a document sorts the lists. -/
theorem toConfiguration_lossless (d : Document) :
    ((∃ c, d.toConfiguration = .ok c) ↔ d.Consistent) ∧
    ∀ c, d.toConfiguration = .ok c →
      c.validate = .ok () ∧ c.localAddress = d.localAddress ∧ c.gateway = d.gateway ∧
      c.routes.Holds d.routes ∧ c.graph.Holds d.graph ∧ c.lora.entries.Holds d.lora ∧
      c.iridium.entries.Holds d.iridium ∧ c.toDocument = d.sorted := by
  refine ⟨exists_toConfiguration_iff, fun c h => ?_⟩
  obtain ⟨hd, hvalid⟩ := toConfiguration_eq_ok_iff.mp h
  exact ⟨(Configuration.validate_eq_ok_iff c).mpr hvalid, hd.localAddress_eq, hd.gateway_eq,
    Table.holds_of_perm hd.routes_perm, Table.holds_of_perm hd.graph_perm,
    Table.holds_of_perm hd.lora_perm, Table.holds_of_perm hd.iridium_perm,
    toDocument_of_describes hd⟩

/-- Lists in any order are accepted and come back by key, and a mode that a schedule names twice is
found even if both entries say the same. -/
theorem toConfiguration_lossless_unordered :
    let d : Document := ⟨⟨7⟩, [(⟨9⟩, ⟨4⟩), (⟨2⟩, ⟨4⟩)], .backend, [(5, ⟨0, 3⟩), (0, ⟨5, 2⟩)],
      [(5, ⟨60, .basic⟩), (0, ⟨15, .summary⟩)], []⟩
    let repeated := { d with iridium := [(1, ⟨60, .basic⟩), (1, ⟨60, .basic⟩)] }
    (∃ c, d.toConfiguration = .ok c ∧ c.toDocument = { d with
      routes := [(⟨2⟩, ⟨4⟩), (⟨9⟩, ⟨4⟩)], graph := [(0, ⟨5, 2⟩), (5, ⟨0, 3⟩)],
      lora := [(0, ⟨15, .summary⟩), (5, ⟨60, .basic⟩)] }) ∧
    ¬ ∃ c, repeated.toConfiguration = .ok c := by
  intro d repeated
  have hconsistent : d.Consistent :=
    ⟨by decide, by decide, by decide, by decide, by decide, by decide⟩
  obtain ⟨c, hc⟩ := (toConfiguration_lossless d).1.mpr hconsistent
  have hdocument := ((toConfiguration_lossless d).2 c hc).2.2.2.2.2.2.2
  refine ⟨⟨c, hc, hdocument.trans (by cbv)⟩, fun h => ?_⟩
  exact absurd ((toConfiguration_lossless repeated).1.mp h).iridium_nodup (by decide)

end Document

end AcousticNode

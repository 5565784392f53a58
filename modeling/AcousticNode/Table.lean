/-!
# Tables sorted by key

A finite map kept as a list of entries whose keys ascend, so that two tables with the same
entries are equal.  Keys are ordered by a rank that tells them apart.

* `insert` : puts an entry in its place, instead of one with the same key;
* `collect` : reads entries one by one and refuses a key that was there before.
-/

set_option autoImplicit false

namespace AcousticNode

/-- Keys that natural numbers tell apart. -/
class Rank (κ : Type) where
  rank : κ → Nat
  rank_injective : ∀ a b, rank a = rank b → a = b

instance : Rank UInt8 where
  rank b := b.toNat
  rank_injective _ _ h := UInt8.toNat_inj.mp h

open Rank (rank)

/-- Entries with ascending keys. -/
structure Table (κ β : Type) [Rank κ] where
  entries : List (κ × β)
  sorted : entries.Pairwise fun a b => rank a.1 < rank b.1

namespace Table

variable {κ β α ε : Type} [Rank κ]

theorem ext_entries {s t : Table κ β} (h : s.entries = t.entries) : s = t := by
  cases s; cases t; cases h; rfl

instance [DecidableEq κ] [DecidableEq β] : DecidableEq (Table κ β) := fun s t =>
  if h : s.entries = t.entries then isTrue (ext_entries h)
  else isFalse fun e => h (e ▸ rfl)

/-- The table without entries. -/
def empty : Table κ β := ⟨[], List.Pairwise.nil⟩

instance : Inhabited (Table κ β) := ⟨empty⟩

def size (t : Table κ β) : Nat := t.entries.length

def isEmpty (t : Table κ β) : Bool := t.entries.isEmpty

/-- The keys, ascending. -/
def keys (t : Table κ β) : List κ := t.entries.map (·.1)

/-- The value at a key in a list of entries. -/
def lookup (k : κ) : List (κ × β) → Option β
  | [] => none
  | (k', v) :: rest => if rank k = rank k' then some v else lookup k rest

/-- The value at a key. -/
def get? (t : Table κ β) (k : κ) : Option β := lookup k t.entries

def contains (t : Table κ β) (k : κ) : Bool := (t.get? k).isSome

/-- Puts an entry in its place, over the one with its key if there is one. -/
def insertEntry (k : κ) (v : β) : List (κ × β) → List (κ × β)
  | [] => [(k, v)]
  | (k', v') :: rest =>
    if rank k < rank k' then (k, v) :: (k', v') :: rest
    else if rank k = rank k' then (k, v) :: rest
    else (k', v') :: insertEntry k v rest

theorem lt_of_mem_insertEntry {n : Nat} {k : κ} {v : β} {es : List (κ × β)} (hk : n < rank k)
    (hes : ∀ e ∈ es, n < rank e.1) : ∀ e ∈ insertEntry k v es, n < rank e.1 := by
  induction es with
  | nil => simpa [insertEntry] using hk
  | cons e es ih =>
    obtain ⟨k', v'⟩ := e
    have hhead : n < rank k' := hes _ List.mem_cons_self
    have htail : ∀ e ∈ es, n < rank e.1 := fun e he => hes e (List.mem_cons_of_mem _ he)
    simp only [insertEntry]
    split
    · intro e he
      rcases List.mem_cons.mp he with rfl | he
      · exact hk
      · exact hes e he
    · split
      · intro e he
        rcases List.mem_cons.mp he with rfl | he
        · exact hk
        · exact htail e he
      · intro e he
        rcases List.mem_cons.mp he with rfl | he
        · exact hhead
        · exact ih htail e he

theorem sorted_insertEntry {k : κ} {v : β} {es : List (κ × β)}
    (h : es.Pairwise fun a b => rank a.1 < rank b.1) :
    (insertEntry k v es).Pairwise fun a b => rank a.1 < rank b.1 := by
  induction h with
  | nil => simp [insertEntry]
  | @cons e es hhead htail ih =>
    obtain ⟨k', v'⟩ := e
    simp only [insertEntry]
    split
    · rename_i hlt
      refine .cons (fun e he => ?_) (.cons hhead htail)
      rcases List.mem_cons.mp he with rfl | he
      · exact hlt
      · exact Nat.lt_trans hlt (hhead e he)
    · split
      · rename_i heq
        exact .cons (fun e he => heq ▸ hhead e he) htail
      · exact .cons (lt_of_mem_insertEntry (show rank k' < rank k by omega) hhead) ih

/-- The table with `v` at `k`. -/
def insert (t : Table κ β) (k : κ) (v : β) : Table κ β :=
  ⟨insertEntry k v t.entries, sorted_insertEntry t.sorted⟩

/-- A list of entries as a table; of entries with one key the last stays. -/
def ofList (es : List (κ × β)) : Table κ β := es.foldl (fun t e => t.insert e.1 e.2) empty

/-- Reads one entry after another into a table.  A key that is there already is a fault, named
when its entry is reached. -/
def collect (read : α → Except ε (κ × β)) (repeated : κ → ε) :
    Table κ β → List α → Except ε (Table κ β)
  | t, [] => .ok t
  | t, a :: as => do
    let (k, v) ← read a
    if t.contains k then .error (repeated k) else collect read repeated (t.insert k v) as

/-- Entries in any order as a table; `repeated` names the fault of a key that occurs twice. -/
def ofDistinct (repeated : κ → ε) (es : List (κ × β)) : Except ε (Table κ β) :=
  collect .ok repeated empty es

theorem rank_inj {a b : κ} : rank a = rank b ↔ a = b :=
  ⟨Rank.rank_injective a b, fun h => h ▸ rfl⟩

end Table

end AcousticNode

import AcousticNode.Fault

/-!
# Operation modes

A node is always in one operation mode.  The mode graph says which mode follows each mode and
after how many cycles; a mode list names the known modes and which one is active.
-/

set_option autoImplicit false

namespace AcousticNode

/-- An operation mode. -/
abbrev Mode := UInt8

/-- Known modes and the place of the active one. -/
structure ModeList where
  modes : List Mode
  activeIndex : UInt8
  active_lt : activeIndex.toNat < modes.length
  deriving DecidableEq

namespace ModeList

/-- A mode list, whose active index has to be a place in it. -/
def make (modes : List Mode) (activeIndex : UInt8) : Except Fault ModeList :=
  if h : activeIndex.toNat < modes.length then .ok ⟨modes, activeIndex, h⟩
  else .error (.badOctet .activeModeIndex activeIndex)

/-- The active mode. -/
def active (m : ModeList) : Mode := m.modes.get ⟨m.activeIndex.toNat, m.active_lt⟩

/-- The modes followed by the active index. -/
def write (m : ModeList) : Bytes := m.modes ++ [m.activeIndex]

def read (value : Bytes) : Except Fault ModeList :=
  match value.getLast? with
  | none => .error (.valueLength .modeList 1 0)
  | some index => make value.dropLast index

end ModeList

/-- Where a mode leads, and after how many cycles. -/
structure Transition where
  next : Mode
  duration : UInt16
  deriving DecidableEq, Repr

/-- The transitions of the modes. -/
abbrev ModeGraph := Table Mode Transition

/-- The least multiple of four that is not below `n`. -/
def nextMultipleOfFour (n : Nat) : Nat := (n + 3) / 4 * 4

/-- A byte string cut into fours, if it comes out even. -/
def quads : Bytes → Option (List (UInt8 × UInt8 × UInt8 × UInt8))
  | [] => some []
  | a :: b :: c :: d :: rest => (quads rest).map ((a, b, c, d) :: ·)
  | _ => none

/-- The word that two octets spell, most significant first. -/
def wordOf (high low : UInt8) : UInt16 := UInt16.ofNat (256 * high.toNat + low.toNat)

/-- The octets of a word, most significant first. -/
def wordOctets (w : UInt16) : Bytes := [UInt8.ofNat (w.toNat / 256), UInt8.ofNat w.toNat]

namespace ModeGraph

/-- The octets of a list of transitions. -/
def writeEntries : List (Mode × Transition) → Bytes
  | [] => []
  | (mode, t) :: rest => mode :: t.next :: (wordOctets t.duration ++ writeEntries rest)

/-- The value of a graph record: four octets to a mode, ascending. -/
def write (g : ModeGraph) : Bytes := writeEntries g.entries

def readEntry : UInt8 × UInt8 × UInt8 × UInt8 → Except Fault (Mode × Transition)
  | (mode, next, high, low) => .ok (mode, ⟨next, wordOf high low⟩)

/-- Reads the value of a graph record.  No mode occurs twice. -/
def read (value : Bytes) : Except Fault ModeGraph :=
  match quads value with
  | none => .error (.valueLength .modeGraph (nextMultipleOfFour value.length) value.length)
  | some entries =>
    Table.collect readEntry (fun m => .payload (.repeatedMode m)) Table.empty entries

/-- The first transition to a mode without an entry. -/
def undefinedMode? (g : ModeGraph) : Option (Mode × Mode) :=
  (g.entries.find? fun e => !g.contains e.2.next).map fun e => (e.1, e.2.next)

/-- A graph has a mode, and every transition leads to one of its modes. -/
def validate (g : ModeGraph) : Except ConfigurationFlaw Unit :=
  if g.isEmpty then .error .emptyGraph
  else
    match undefinedMode? g with
    | some (mode, next) => .error (.undefinedMode mode next)
    | none => .ok ()

/-- The lowest mode. -/
def first? (g : ModeGraph) : Option Mode := g.keys.head?

end ModeGraph

end AcousticNode

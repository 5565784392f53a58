import AcousticNode.Fault
import AcousticNode.Wire.Opcode
import Mathlib.Computability.Language

/-!
# The grammar of payloads

The octets that a packet may carry, for each operation code and either direction, as languages
over octets.  Nothing here mentions how a payload is decoded: the tags, the widths and the
permitted octets are written out.

* `language` : the payloads of an operation code, towards the shore or away from it;
* `aspects` : records of the hydrophone's aspects, each at most once, in any order.
-/

set_option autoImplicit false

namespace AcousticNode.Grammar

open scoped Computability

/-! ## Parts -/

/-- Any `n` octets. -/
def octets (n : Nat) : Language UInt8 := {v | v.length = n}

/-- A single octet out of a list. -/
def oneOf (choices : List UInt8) : Language UInt8 := {v | ∃ b ∈ choices, v = [b]}

/-- Zero or one. -/
def flag : Language UInt8 := oneOf [0, 1]

/-- A tag, a length and a value of that length. -/
def record (tag : UInt8) (values : Language UInt8) : Language UInt8 :=
  {bs | ∃ len : UInt8, ∃ value ∈ values, len.toNat = value.length ∧ bs = tag :: len :: value}

/-- A record with any tag and any value. -/
def anyRecord : Language UInt8 := {bs | ∃ tag, bs ∈ record tag ⊤}

/-! ## Records of readings -/

def battery : Language UInt8 := record 0x42 (octets 1 * oneOf [0, 1, 2, 3, 4])

def location : Language UInt8 := record 0x4c (octets 8)

def clock : Language UInt8 := record 0x52 (octets 8)

def ambient : Language UInt8 := record 0x54 (octets 2)

def storage : Language UInt8 := record 0x53 (octets 8)

/-! ## Records of the hydrophone -/

/-- The record of an aspect.  Of the streaming configuration, the first two octets and those
behind the first processing settings are flags. -/
def aspect : Aspect → Language UInt8
  | .status => record 0x73 (octets 34)
  | .logging => record 0x6c (octets 19)
  | .streaming => record 0x63 (flag * (flag * (octets 3 * (flag * (flag * octets 11)))))
  | .stats => record 0x72 (octets 11)

/-- All four aspects in their order, in a record of their own. -/
def hydrophone : Language UInt8 :=
  record 0x69 (aspect .status * (aspect .logging * (aspect .streaming * aspect .stats)))

/-- The aspects in any order, each at most once. -/
def aspects : Language UInt8 :=
  {bs | ∃ order : List Aspect, order.Nodup ∧ bs ∈ (order.map aspect).prod}

/-! ## Payloads -/

def basicReport : Language UInt8 := battery * (location * clock)

def completeReport : Language UInt8 :=
  battery * (ambient * (location * (storage * hydrophone)))

/-- The tags of all modules: `B L N O G P R S T M i s l c r`. -/
def tags : List UInt8 :=
  [0x42, 0x4c, 0x4e, 0x4f, 0x47, 0x50, 0x52, 0x53, 0x54, 0x4d, 0x69, 0x73, 0x6c, 0x63, 0x72]

/-- The payloads of an operation code for packets to a receiver.  Address zero is the shore. -/
def language (op : Opcode) (receiver : UInt8) : Language UInt8 :=
  match op with
  | .errorReport => oneOf [1, 2, 3, 4, 5, 6]
  | .basicStatus => 1 + basicReport
  | .completeStatus => 1 + completeReport
  | .setConfiguration => anyRecord∗
  | .getConfiguration => if receiver = 0 then anyRecord∗ else (oneOf tags)∗
  | .getHydrophone => if receiver = 0 then aspects else octets 1
  | .setHydrophone => aspects

end AcousticNode.Grammar

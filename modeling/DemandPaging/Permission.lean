/-!
# Access rights of a page

Three rights, each containing the ones before it. They are stored in two bits,
of which the fourth pattern reads as full rights.
-/

namespace DemandPaging

/-- What an access to a page may do. -/
inductive Permission where
  /-- Neither read nor write. -/
  | noAccess
  /-- Read only. -/
  | read
  /-- Read and write. -/
  | readWrite
  deriving DecidableEq, Repr, Inhabited

namespace Permission

/-- The rights stored in the low two bits of `n`. -/
def ofBits (n : Nat) : Permission :=
  match n % 4 with
  | 0 => noAccess
  | 1 => read
  | _ => readWrite

/-- The two bits under which rights are stored. -/
def bits : Permission → Fin 4
  | noAccess => 0
  | read => 1
  | readWrite => 2

/-- A load is allowed. -/
def allowsRead : Permission → Bool
  | noAccess => false
  | read | readWrite => true

/-- A store is allowed. -/
def allowsWrite : Permission → Bool
  | noAccess | read => false
  | readWrite => true

/-- The flags that ask the host for these rights: one for reading and two for writing. -/
def hostFlags : Permission → Nat
  | noAccess => 0
  | read => 1
  | readWrite => 3

/-- Rights are ordered by what they allow. -/
instance : LE Permission := ⟨fun p q => p.bits ≤ q.bits⟩

instance (p q : Permission) : Decidable (p ≤ q) := inferInstanceAs (Decidable (p.bits ≤ q.bits))

/-- The order of two rights. -/
def order (p q : Permission) : Ordering := compare p.bits q.bits

/-- The name of the rights in messages. -/
def text : Permission → String
  | noAccess => "NONE"
  | read => "READ"
  | readWrite => "READ_WRITE"

/-- Every right, in ascending order. -/
def all : List Permission := [noAccess, read, readWrite]

/-- The rights with the given name. -/
def ofText? (s : String) : Option Permission := all.find? (·.text == s)

/-- The name of the rights as a field value. -/
def fieldText : Permission → String
  | noAccess => "None"
  | read => "Read"
  | readWrite => "ReadWrite"

@[simp] theorem ofBits_bits (p : Permission) : ofBits p.bits.val = p := by
  cases p <;> rfl

end Permission

end DemandPaging

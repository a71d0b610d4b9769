/-
Zend values, as far as the extension looks at them. An array is a table of
buckets (`arData`, `nNumUsed` of them, `nNumOfElements` live); a bucket's
key is a string or, for an integer key, the `NULL` pointer.

The macros that read a zval do not test its type. Each is a partial
operation here: it stops the process where the bytes behind the pointer
are not what the macro takes them for. What `Z_STRVAL` then reads is left
to the parameter `Zend.strval`, so a result can be stated for every
outcome of such a read, the crash included.
-/
import PolarisPhp.Lib.Bytes
import PolarisPhp.Lib.Table

namespace PolarisPhp

/-- A bucket's key: `h` of an integer key, whose `key` is `NULL`, or the
bytes of a string key. -/
inductive ZKey where
  | index (h : Int)
  | name (s : Bytes)
  deriving DecidableEq, Repr

inductive Zval where
  | null
  | bool (b : Bool)
  | long (n : Int64)
  | double (bits : UInt64)
  | str (s : Bytes)
  | array (ht : Table ZKey Zval)
  | object (handle : UInt32)
  | resource (handle : UInt32)
  | reference (v : Zval)

/-- A bucket that `unset` left behind (`IS_UNDEF`) is a slot without a value. -/
abbrev HashTable := Table ZKey Zval

namespace HashTable

def arData (ht : HashTable) : List (ZKey × Option Zval) := ht.slots

def nNumOfElements (ht : HashTable) : Nat := ht.count

end HashTable

/-- `ZVAL_DEREF`. -/
def Zval.deref : Zval → Zval
  | .reference v => v.deref
  | v => v

/-- The arrays PHP can build: at every depth a sound table. -/
inductive Zval.Sound : Zval → Prop
  | null : Zval.Sound .null
  | bool {b} : Zval.Sound (.bool b)
  | long {n} : Zval.Sound (.long n)
  | double {bits} : Zval.Sound (.double bits)
  | str {s} : Zval.Sound (.str s)
  | array {ht : HashTable} : ht.Sound → (∀ k v, (k, v) ∈ ht.live → Zval.Sound v) → Zval.Sound (.array ht)
  | object {handle} : Zval.Sound (.object handle)
  | resource {handle} : Zval.Sound (.resource handle)
  | reference {v} : Zval.Sound v → Zval.Sound (.reference v)

theorem Zval.Sound.of_array {ht : HashTable} (h : Zval.Sound (.array ht)) : ht.Sound := by
  cases h with
  | array hs _ => exact hs

theorem Zval.Sound.of_mem {ht : HashTable} (h : Zval.Sound (.array ht)) {k : ZKey} {v : Zval}
    (hm : (k, v) ∈ ht.live) : v.Sound := by
  cases h with
  | array _ hv => exact hv k v hm

/-- Why a method does not return. -/
inductive Stop where
  /-- `ZSTR_VAL` of the `NULL` key of an integer-keyed bucket -/
  | nullKey
  /-- `Z_STRVAL` of a zval that is no string -/
  | strval
  /-- `Z_ARRVAL_P` or `HASH_OF` of a zval that is no array -/
  | arrval
  /-- `Z_ARRVAL_P` of a `NULL` pointer -/
  | nullZval
  /-- a C++ object read through a `NULL` pointer -/
  | nullPtr
  /-- a use of a pointer that was never set -/
  | uninit
  /-- `exit(EXIT_FAILURE)` -/
  | exit
  deriving DecidableEq, Repr

/-- The reads of PHP values that their type does not allow. -/
def Stop.badRead : Stop → Bool
  | .nullKey | .strval | .arrval | .nullZval => true
  | .nullPtr | .uninit | .exit => false

/-- Whether the length of a key, as the hash table compares it, counts the
NUL that ends it. -/
inductive KeyLength where
  | withNul
  | withoutNul
  deriving DecidableEq, Repr

/-- What the model leaves open of Zend. -/
structure Zend where
  keyLength : KeyLength
  /-- what `Z_STRVAL` reads from a zval that is no string; `none` is a crash -/
  strval : Zval → Option Bytes
  /-- the integer the specifier `l` makes of a value that is none -/
  toLong : Zval → Option Int64
  /-- the string cast of a double, an object or a resource -/
  toStr : Zval → Bytes

/-- A Zend whose every read of a zval as the string it is not gives `s`. -/
def Zend.reading (keyLength : KeyLength) (s : Option Bytes) : Zend where
  keyLength := keyLength
  strval := fun _ => s
  toLong := fun
    | .null => some 0
    | .bool b => some (if b then 1 else 0)
    | _ => none
  toStr := fun _ => []

/-- A Zend that reads what the machine does: in an array `nNumUsed` stands where
the bytes of a string begin, and an integer is no address of anything. -/
def Zend.native (keyLength : KeyLength) : Zend :=
  { Zend.reading keyLength none with
    strval := fun
      | .array ht => some [UInt8.ofNat (HashTable.arData ht).length]
      | _ => none }

/-! ## Reading values -/

/-- `Z_STRVAL`. -/
def zStrval (z : Zend) : Zval → Except Stop Bytes
  | .str s => .ok s
  | v => match z.strval v with
    | some s => .ok s
    | none => .error .strval

/-- `ZSTR_VAL(b->key)`. -/
def zstrVal : ZKey → Except Stop Bytes
  | .name s => .ok s
  | .index _ => .error .nullKey

/-- `Z_ARRVAL_P`, and `HASH_OF` where the source uses it on the same zvals. -/
def zArrvalP : Option Zval → Except Stop HashTable
  | some (.array ht) => .ok ht
  | some _ => .error .arrval
  | none => .error .nullZval

@[simp] theorem zStrval_str (z : Zend) (s : Bytes) : zStrval z (.str s) = .ok s := rfl

@[simp] theorem zstrVal_name (s : Bytes) : zstrVal (.name s) = .ok s := rfl

@[simp] theorem zArrvalP_array (ht : HashTable) : zArrvalP (some (.array ht)) = .ok ht := rfl

theorem zArrvalP_eq_ok {v : Option Zval} {ht : HashTable} :
    zArrvalP v = .ok ht ↔ v = some (.array ht) := by
  rcases v with _ | v
  · simp [zArrvalP]
  · cases v <;> simp [zArrvalP]

end PolarisPhp

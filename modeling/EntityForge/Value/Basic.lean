import EntityForge.Number.Binary64
import EntityForge.Value.Calendar

/-!
# Document values

The values an entity document is made of. A mapping is a list of entries in the order written;
`putEntry` keeps its keys distinct, an entry for a key that is there already replacing the value
in its old place. Keys are compared by value, so that `1`, `true` and `1.0` are one key.
-/

namespace EntityForge

/-- A value of an entity document. -/
inductive Value where
  | null
  | bool (b : Bool)
  | int (i : Int)
  | float (x : Binary64)
  | text (s : String)
  | bytes (bs : List UInt8)
  | date (d : Date)
  | dateTime (t : DateTime)
  | list (items : List Value)
  /-- A fixed group of values, such as an entry of an ordered mapping. -/
  | tuple (items : List Value)
  | set (items : List Value)
  | map (entries : List (Value × Value))
  deriving BEq, Repr, Inhabited

/-- The entries of a mapping. -/
abbrev Entries := List (Value × Value)

namespace Value

/-- The number a number or truth value stands for, if it is whole. -/
def whole? : Value → Option Int
  | .bool b => some (if b then 1 else 0)
  | .int i => some i
  | .float x => x.toInt?
  | _ => none

mutual

/-- Two values are the same as keys of a mapping. -/
def sameKey : Value → Value → Bool
  | .null, .null => true
  | .text s, .text t => s == t
  | .bytes s, .bytes t => s == t
  | .date d, .date e => d == e
  | .dateTime t, .dateTime u => t.sameMoment u
  | .float x, .float y => x.numEq y
  | .tuple xs, .tuple ys => sameKeys xs ys
  | v, w => v.whole?.isSome && v.whole? == w.whole?

/-- Groups of keys are the same member by member. -/
def sameKeys : List Value → List Value → Bool
  | [], [] => true
  | x :: xs, y :: ys => sameKey x y && sameKeys xs ys
  | _, _ => false

end

/-- May be a key of a mapping or a member of a set. -/
def isKey : Value → Bool
  | .list _ | .set _ | .map _ => false
  | .tuple items => keysIn items
  | _ => true
where
  /-- Every member of a group may be a key. -/
  keysIn : List Value → Bool
    | [] => true
    | x :: xs => x.isKey && keysIn xs

/-- The entries with the value of one key set. -/
def putEntry (key value : Value) : Entries → Entries
  | [] => [(key, value)]
  | (k, v) :: rest => if k.sameKey key then (k, value) :: rest else (k, v) :: putEntry key value rest

/-- A mapping from entries in the order written, of which the last wins for each key. -/
def ofEntries (entries : Entries) : Entries :=
  entries.foldl (fun acc e => putEntry e.1 e.2 acc) []

/-- The value of a text key. -/
def lookup (key : String) : Entries → Option Value
  | [] => none
  | (.text k, v) :: rest => if k = key then some v else lookup key rest
  | _ :: rest => lookup key rest

/-- The value of a text key, unless it is null. -/
def lookupPresent (key : String) (entries : Entries) : Option Value :=
  match lookup key entries with
  | some .null => none
  | v => v

/-- The key is one of the names. -/
def isOneOf (names : List String) : Value → Bool
  | .text s => names.contains s
  | _ => false

/-! ## Distinct keys -/

/-- No key is there twice. -/
def Distinct (entries : Entries) : Prop :=
  entries.Pairwise fun e f => e.1.sameKey f.1 = false

instance (entries : Entries) : Decidable (Distinct entries) :=
  inferInstanceAs (Decidable (entries.Pairwise _))

/-- A condition on keys holds of the keys that are there and of the one that is set. -/
theorem forall_mem_putEntry {P : Value → Prop} {key value : Value} {entries : Entries}
    (hkey : P key) (hentries : ∀ e ∈ entries, P e.1) : ∀ e ∈ putEntry key value entries, P e.1 := by
  induction entries with
  | nil =>
    intro e he
    rw [List.mem_singleton.mp he]
    exact hkey
  | cons first rest ih =>
    obtain ⟨hfirst, hrest⟩ := List.forall_mem_cons.mp hentries
    rw [putEntry]
    split
    · exact List.forall_mem_cons.mpr ⟨hfirst, hrest⟩
    · exact List.forall_mem_cons.mpr ⟨hfirst, ih hrest⟩

/-- Setting a key leaves the keys distinct. -/
theorem distinct_putEntry {entries : Entries} (h : Distinct entries) (key value : Value) :
    Distinct (putEntry key value entries) := by
  induction entries with
  | nil => exact List.pairwise_singleton _ _
  | cons first rest ih =>
    obtain ⟨hfirst, hrest⟩ := List.pairwise_cons.mp h
    rw [putEntry]
    split
    · exact List.pairwise_cons.mpr ⟨hfirst, hrest⟩
    · rename_i hother
      have hput : ∀ e ∈ putEntry key value rest, first.1.sameKey e.1 = false :=
        forall_mem_putEntry (P := fun k => first.1.sameKey k = false)
          ((Bool.not_eq_true _).mp hother) hfirst
      exact List.pairwise_cons.mpr ⟨hput, ih hrest⟩

/-- The keys of a mapping are distinct, whatever the entries that it is made from. -/
theorem distinct_ofEntries (entries : Entries) : Distinct (ofEntries entries) := by
  have hfold (acc : Entries) (hacc : Distinct acc) :
      Distinct (entries.foldl (fun acc e => putEntry e.1 e.2 acc) acc) := by
    induction entries generalizing acc with
    | nil => exact hacc
    | cons e entries ih => exact ih _ (distinct_putEntry hacc e.1 e.2)
  exact hfold [] List.Pairwise.nil

end Value

end EntityForge

import RoboBand.Util.MergeDepth
import Mathlib.Data.Rat.Init

namespace RoboBand.Util

open RoboBand.Data Toml

/-! How the constructors read their configuration: what they log, and what
comes of it unless an exception is thrown. -/

inductive LogLine where
  | info (text : String)
  | error (text : String)

def LogLine.IsInfo : LogLine → Prop
  | .info _ => True
  | .error _ => False

/-- What ends a constructor without an object. -/
inductive Halt where
  | throws (what : String)
  | exits (status : ℤ)
  | undefined

def Halt.wrongFile : Halt := .throws "Wrong configuration file."

structure Reading (β : Type) where
  log : List LogLine
  result : Except Halt β

namespace Reading

variable {β γ : Type}

def value (reading : Reading β) : Option β := reading.result.toOption

def bind (reading : Reading β) (next : β → Reading γ) : Reading γ :=
  match reading.result with
  | .error halt => ⟨reading.log, .error halt⟩
  | .ok value => ⟨reading.log ++ (next value).log, (next value).result⟩

instance : Monad Reading where
  pure value := ⟨[], .ok value⟩
  bind := bind

/-- The error is logged before the exception is thrown. -/
def wrong (text : String) : Reading β := ⟨[.error text], .error .wrongFile⟩

/-- Where the rest throws, what has been constructed before it is destroyed. -/
def unwinding (closing : List LogLine) (rest : Reading β) : Reading β :=
  match rest.result with
  | .error (.throws what) => ⟨rest.log ++ closing, .error (.throws what)⟩
  | .error (.exits _) | .error .undefined | .ok _ => rest

@[simp] theorem value_pure (value : β) :
    (pure value : Reading β).value = some value := rfl

@[simp] theorem value_bind (reading : Reading β) (next : β → Reading γ) :
    (reading >>= next).value =
      reading.value.bind fun value => (next value).value := by
  change (reading.bind next).value = _
  rw [bind, value]
  cases result : reading.result with
  | error halt =>
      rw [value, result]
      rfl
  | ok made =>
      rw [value, result]
      rfl

theorem value_bind_of {reading : Reading β} {value : β}
    (made : reading.value = some value) (next : β → Reading γ) :
    (reading >>= next).value = (next value).value := by
  rw [value_bind, made, Option.bind_some]

theorem value_bind_eq_some {reading : Reading β} {next : β → Reading γ}
    {made : γ} : (reading >>= next).value = some made ↔
      ∃ value, reading.value = some value ∧ (next value).value = some made := by
  rw [value_bind, Option.bind_eq_some_iff]

@[simp] theorem value_unwinding (closing : List LogLine)
    (rest : Reading β) : (unwinding closing rest).value = rest.value := by
  rw [unwinding]
  split
  · rename_i result
    rw [value, value, result]
  · rfl
  · rfl
  · rfl

/-- What goes well logs no error; what fails logs one, throws, and logs nothing
after it. -/
inductive Plain : Reading β → Prop
  | good {log : List LogLine} (value : β)
      (infos : ∀ line ∈ log, line.IsInfo) : Plain ⟨log, .ok value⟩
  | bad {infos : List LogLine} (text : String)
      (before : ∀ line ∈ infos, line.IsInfo) :
      Plain ⟨infos ++ [.error text], .error .wrongFile⟩

theorem Plain.pure (value : β) : Plain (Pure.pure value : Reading β) :=
  .good value fun _ member => absurd member List.not_mem_nil

theorem Plain.wrong (text : String) : Plain (wrong text : Reading β) :=
  .bad text fun _ member => absurd member List.not_mem_nil

theorem Plain.bind {reading : Reading β} {next : β → Reading γ}
    (plain : Plain reading) (onward : ∀ value, Plain (next value)) :
    Plain (reading >>= next) := by
  cases plain with
  | bad text before => exact .bad text before
  | @good log value infos =>
      change Plain ⟨log ++ (next value).log, (next value).result⟩
      have later := onward value
      cases made : next value with
      | mk log' result =>
          rw [made] at later
          cases later with
          | good result more =>
              exact .good result (List.forall_mem_append.mpr ⟨infos, more⟩)
          | bad text before =>
              rw [← List.append_assoc]
              exact .bad text (List.forall_mem_append.mpr ⟨infos, before⟩)

end Reading

section Get

variable {α β : Type}

def trueKey (key : String) : LogLine := .info ("True key: " ++ key)

def getTable (table : Entries α) (key : String) : Reading (Entries α) :=
  match table.lookup key with
  | some (.table inner) => ⟨[trueKey key], .ok inner⟩
  | _ =>
      .wrong ("An error occurred when took out a subtable named \"" ++ key ++
        "\".")

def leaf? : Toml.Node α → Option α
  | .leaf value => some value
  | .table _ => none

/-- `table[key].value<T>()`. -/
def valueAt? (value? : α → Option β) (table : Entries α) (key : String) :
    Option β :=
  ((table.lookup key).bind leaf?).bind value?

def getValue (value? : α → Option β) (table : Entries α) (key : String) :
    Reading β :=
  match valueAt? value? table key with
  | some value => ⟨[trueKey key], .ok value⟩
  | none =>
      .wrong ("An error occurred when got a value named \"" ++ key ++ "\".")

/-- What the library makes of the elements of an array: the array of a node,
the value of an element of the right type, and the names of two types. -/
structure Elements (α β : Type) where
  array? : α → Option (List α)
  cast? : α → Option β
  required : String
  given : α → String

variable (elements : Elements α β) (n : ℕ)

/-- The elements as a `std::array<T, N>`. -/
def Elements.all? (elems : List α) : Option (Fin n → β) :=
  if right : elems.length = n ∧
      ∀ elem ∈ elems, (elements.cast? elem).isSome = true then
    some fun i => (elements.cast? (elems.get (i.cast right.1.symm))).get
      (right.2 _ (List.get_mem elems _))
  else none

/-- The first element that is not of the right type. -/
def Elements.wrong? (elems : List α) : Option α :=
  elems.find? fun elem => (elements.cast? elem).isNone

def getArray (table : Entries α) (key : String) : Reading (Fin n → β) :=
  match valueAt? elements.array? table key with
  | none =>
      .wrong ("An error occurred when got an array named \"" ++ key ++ "\".")
  | some elems =>
      if elems.length ≠ n then
        .wrong ("Array named \"" ++ key ++ "\" required " ++ toString n ++
          " elements, but you gave " ++ toString elems.length ++ ".")
      else
        match elements.wrong? elems with
        | some elem =>
            .wrong ("Array named \"" ++ key ++ "\" required \"" ++
              elements.required ++ "\" type data, but you gave \"" ++
              elements.given elem ++ "\".")
        | none =>
            ⟨[trueKey key],
              (elements.all? n elems).elim (.error .wrongFile) .ok⟩

section Value

variable {table : Entries α} {key : String}

theorem value_getTable : (getTable table key).value =
    (table.lookup key).bind fun
      | .table inner => some inner
      | .leaf _ => none := by
  rw [getTable]
  match table.lookup key with
  | none => rfl
  | some (.leaf value) => rfl
  | some (.table inner) => rfl

theorem value_getTable_eq_some {inner : Entries α} :
    (getTable table key).value = some inner ↔
      table.lookup key = some (.table inner) := by
  rw [value_getTable]
  match table.lookup key with
  | none => exact ⟨nofun, nofun⟩
  | some (.leaf value) => exact ⟨nofun, nofun⟩
  | some (.table found) =>
      refine ⟨fun same => ?_, fun same => ?_⟩
      · exact congrArg (some ∘ Data.Node.table) (Option.some.inj same)
      · exact congrArg some (Data.Node.table.inj (Option.some.inj same))

theorem value_getValue (value? : α → Option β) :
    (getValue value? table key).value = valueAt? value? table key := by
  rw [getValue]
  cases valueAt? value? table key with
  | none => rfl
  | some value => rfl

variable {elements n}

theorem all?_of_length_ne {elems : List α} (short : elems.length ≠ n) :
    elements.all? n elems = none := dif_neg fun right => short right.1

theorem all?_of_wrong {elems : List α} {elem : α}
    (wrong : elements.wrong? elems = some elem) :
    elements.all? n elems = none := by
  refine dif_neg fun right => ?_
  have isNone := List.find?_some wrong
  have isSome := right.2 elem (List.mem_of_find?_eq_some wrong)
  rw [Option.isNone_iff_eq_none.mp isNone] at isSome
  cases isSome

theorem exists_all? {elems : List α} (length : elems.length = n)
    (right : elements.wrong? elems = none) :
    ∃ array, elements.all? n elems = some array := by
  have casts : ∀ elem ∈ elems, (elements.cast? elem).isSome = true := by
    intro elem member
    have given := List.find?_eq_none.mp right elem member
    exact Option.isSome_iff_ne_none.mpr fun missing =>
      given (Option.isNone_iff_eq_none.mpr missing)
  exact ⟨_, dif_pos ⟨length, casts⟩⟩

variable (elements n)

def Elements.arrayOf? (value : α) : Option (Fin n → β) :=
  (elements.array? value).bind (elements.all? n)

theorem value_getArray : (getArray elements n table key).value =
    valueAt? (elements.arrayOf? n) table key := by
  have composed : valueAt? (elements.arrayOf? n) table key =
      (valueAt? elements.array? table key).bind (elements.all? n) :=
    (Option.bind_assoc _ _ _).symm
  rw [composed, getArray]
  cases valueAt? elements.array? table key with
  | none => rfl
  | some elems =>
      simp only [Option.bind_some]
      split
      · rename_i short
        exact (all?_of_length_ne short).symm
      · split
        · rename_i wrong
          exact (all?_of_wrong wrong).symm
        · cases elements.all? n elems with
          | none => rfl
          | some array => rfl

end Value

section Plain

open Reading

theorem plain_getTable (table : Entries α) (key : String) :
    Plain (getTable table key) := by
  rw [getTable]
  split
  · exact .good _ fun line member => List.mem_singleton.mp member ▸ trivial
  · exact .wrong _

theorem plain_getValue (value? : α → Option β) (table : Entries α)
    (key : String) : Plain (getValue value? table key) := by
  rw [getValue]
  split
  · exact .good _ fun line member => List.mem_singleton.mp member ▸ trivial
  · exact .wrong _

theorem plain_getArray (table : Entries α) (key : String) :
    Plain (getArray elements n table key) := by
  rw [getArray]
  split
  · exact .wrong _
  · split
    · exact .wrong _
    · split
      · exact .wrong _
      · rename_i length _ right
        obtain ⟨array, made⟩ := exists_all? (not_not.mp length) right
        rw [made]
        exact .good array fun line member =>
          List.mem_singleton.mp member ▸ trivial

end Plain

end Get

section Keys

variable {α β : Type}

/-- The type that a `Key` asks for. -/
inductive KeyType where
  | int
  | float
  | string
  | floats (n : ℕ)

abbrev KeyType.Value : KeyType → Type
  | .int => ℤ
  | .float => ℚ
  | .string => String
  | .floats n => Fin n → ℚ

instance inhabitedValue : (type : KeyType) → Inhabited type.Value
  | .int => ⟨(0 : ℤ)⟩
  | .float => ⟨(0 : ℚ)⟩
  | .string => ⟨""⟩
  | .floats n => ⟨fun _ : Fin n => (0 : ℚ)⟩

/-- What `node::value` and `node::as_array` make of a value. -/
structure TomlLibrary (α : Type) where
  int? : α → Option ℤ
  float? : α → Option ℚ
  string? : α → Option String
  floats : Elements α ℚ

variable (lib : TomlLibrary α)

def TomlLibrary.convert? : (type : KeyType) → α → Option type.Value
  | .int => lib.int?
  | .float => lib.float?
  | .string => lib.string?
  | .floats n => lib.floats.arrayOf? n

/-- `table > Key<T, N>(name)`. -/
def get (table : Entries α) (name : String) :
    (type : KeyType) → Reading type.Value
  | .int => getValue lib.int? table name
  | .float => getValue lib.float? table name
  | .string => getValue lib.string? table name
  | .floats n => getArray lib.floats n table name

theorem value_get (table : Entries α) (name : String) (type : KeyType) :
    (get lib table name type).value =
      valueAt? (lib.convert? type) table name := by
  cases type with
  | int => exact value_getValue lib.int?
  | float => exact value_getValue lib.float?
  | string => exact value_getValue lib.string?
  | floats n => exact value_getArray lib.floats n

theorem plain_get (table : Entries α) (name : String) (type : KeyType) :
    (get lib table name type).Plain := by
  cases type with
  | int => exact plain_getValue lib.int? table name
  | float => exact plain_getValue lib.float? table name
  | string => exact plain_getValue lib.string? table name
  | floats n => exact plain_getArray lib.floats n table name

/-- What stands at the end of a path, as a value of the right type. -/
def at? (convert? : α → Option β) (path : List String) (config : Entries α) :
    Option β :=
  ((RoboBand.Data.Node.table config).leafAt? path).bind convert?

variable {convert? : α → Option β}

theorem at?_single (table : Entries α) (name : String) :
    at? convert? [name] table = valueAt? convert? table name := by
  rw [at?, valueAt?, Node.leafAt?]
  refine congrArg (Option.bind · convert?) ?_
  cases table.lookup name with
  | none => rfl
  | some node => cases node <;> rfl

theorem at?_cons {table inner : Entries α} {name : String}
    (found : table.lookup name = some (.table inner)) (path : List String) :
    at? convert? (name :: path) table = at? convert? path inner := by
  rw [at?, Node.leafAt?, found]
  rfl

theorem exists_table_of_at? {table : Entries α} {name next : String}
    {path : List String} {value : β}
    (held : at? convert? (name :: next :: path) table = some value) :
    ∃ inner, table.lookup name = some (.table inner) := by
  obtain ⟨leaf, found, _⟩ := Option.bind_eq_some_iff.mp held
  obtain ⟨node, here, reached⟩ := Option.bind_eq_some_iff.mp found
  cases node with
  | leaf value => cases reached
  | table inner => exact ⟨inner, here⟩

theorem exists_tables_of_at? {table : Entries α} {name next last : String}
    {path : List String} {value : β}
    (held : at? convert? (name :: next :: last :: path) table = some value) :
    ∃ outer inner, table.lookup name = some (.table outer) ∧
      outer.lookup next = some (.table inner) := by
  obtain ⟨outer, outerFound⟩ := exists_table_of_at? held
  rw [at?_cons outerFound] at held
  obtain ⟨inner, innerFound⟩ := exists_table_of_at? held
  exact ⟨outer, inner, outerFound, innerFound⟩

section Reached

variable {lib} {table outer inner : Entries α} {name : String}
  {type : KeyType}

theorem value_get_top : (get lib table name type).value =
    at? (lib.convert? type) [name] table := by
  rw [at?_single, value_get]

theorem value_get_inner {first : String}
    (found : table.lookup first = some (.table outer)) :
    (get lib outer name type).value =
      at? (lib.convert? type) [first, name] table := by
  rw [at?_cons found, value_get_top]

theorem value_get_innermost {first second : String}
    (found : table.lookup first = some (.table outer))
    (innerFound : outer.lookup second = some (.table inner)) :
    (get lib inner name type).value =
      at? (lib.convert? type) [first, second, name] table := by
  rw [at?_cons found, value_get_inner innerFound]

variable {value : type.Value}

theorem isSome_of_top (got : (get lib table name type).value = some value) :
    (at? (lib.convert? type) [name] table).isSome = true :=
  Option.isSome_of_eq_some (value_get_top.symm.trans got)

theorem isSome_of_inner {first : String}
    (found : table.lookup first = some (.table outer))
    (got : (get lib outer name type).value = some value) :
    (at? (lib.convert? type) [first, name] table).isSome = true :=
  Option.isSome_of_eq_some ((value_get_inner found).symm.trans got)

theorem isSome_of_innermost {first second : String}
    (found : table.lookup first = some (.table outer))
    (innerFound : outer.lookup second = some (.table inner))
    (got : (get lib inner name type).value = some value) :
    (at? (lib.convert? type) [first, second, name] table).isSome = true :=
  Option.isSome_of_eq_some
    ((value_get_innermost found innerFound).symm.trans got)

end Reached

/-- What the user gives is of the kind, and where it counts of the type, that
is asked for. -/
structure Usable (convert? : α → Option β) (path : List String)
    (user default : Entries α) : Prop where
  fits : Fits path user default
  typed : path.length % 2 ≠ 0 → ∀ value,
    (RoboBand.Data.Node.table user).leafAt? path = some value →
      (convert? value).isSome = true

theorem Usable.of_absent {user default : Entries α} {name : String}
    (absent : user.lookup name = none) :
    Usable convert? [name] user default where
  fits inner found := Option.some_ne_none _ (found.symm.trans absent)
  typed _ value given := by
    rw [Node.leafAt?, absent] at given
    cases given

theorem Usable.of_innermost {user default outer inner : Entries α}
    {first second name : String}
    (outerGiven : user.lookup first = some (.table outer))
    (innerGiven : outer.lookup second = some (.table inner))
    (leafOnly : ∀ deeper, inner.lookup name ≠ some (.table deeper))
    (typed : ∀ value, valueAt? some inner name = some value →
      (convert? value).isSome = true) :
    Usable convert? [first, second, name] user default where
  fits := by
    intro value given
    refine ⟨outer, Option.some.inj (given.symm.trans outerGiven), ?_⟩
    intro _ _ value given
    exact ⟨inner, Option.some.inj (given.symm.trans innerGiven),
      fun _ _ => leafOnly⟩
  typed _ value given := by
    refine typed value ?_
    have reached : at? some [first, second, name] user = some value := by
      rw [at?, given]
      rfl
    rw [at?_cons outerGiven, at?_cons innerGiven, at?_single] at reached
    exact reached

/-- A value of the default, with the user's in its place at an odd depth. -/
def chosen (convert? : α → Option β) (path : List String) (user : Entries α)
    (value : β) : β :=
  if path.length % 2 = 0 then value else (at? convert? path user).getD value

theorem at?_mergeConfig {user default : Toml.Table α} {path : List String}
    {value : β} (usable : Usable convert? path user.entries default.entries)
    (held : at? convert? path default.entries = some value) :
    at? convert? path (mergeConfig user default).2.entries =
      some (chosen convert? path user.entries value) := by
  obtain ⟨leaf, found, converted⟩ := Option.bind_eq_some_iff.mp held
  have merged := leafAt?_merged user.valid default.valid usable.fits found
  have stands : at? convert? path (mergeConfig user default).2.entries =
      Option.bind _ convert? := congrArg (Option.bind · convert?) merged
  rw [stands, Option.bind_some, chosen]
  split
  · exact converted
  · rename_i odd
    rw [at?]
    cases given : (RoboBand.Data.Node.table user.entries).leafAt? path with
    | none => exact converted
    | some other =>
        have right := usable.typed odd other given
        obtain ⟨chosen, made⟩ := Option.isSome_iff_exists.mp right
        rw [Option.getD_some, Option.bind_some, made]
        rfl

end Keys

end RoboBand.Util

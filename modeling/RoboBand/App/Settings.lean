import RoboBand.App.RobotCreate
import RoboBand.Util.Config

namespace RoboBand.App

open RoboBand.Data RoboBand.Util Toml

variable {α : Type}

/-! What a robot is built from, whichever it is: keys, each with its place and
its type, and a constructor that is decided by their values. -/

/-- The keys that a constructor reads. -/
structure Keys (Key : Type) where
  path : Key → List String
  type : Key → KeyType

namespace Keys

variable {Key : Type} (keys : Keys Key) (lib : TomlLibrary α)

abbrev Values := (key : Key) → (keys.type key).Value

def in? (config : Entries α) (key : Key) : Option (keys.type key).Value :=
  at? (lib.convert? (keys.type key)) (keys.path key) config

/-- The configuration holds every key, with a value of its type. -/
def Holds (config : Entries α) (values : keys.Values) : Prop :=
  ∀ key, keys.in? lib config key = some (values key)

/-- The user puts no table where the default has a value, no value where it has
a table, and values of the right types. -/
def AllUsable (user default : Entries α) : Prop :=
  ∀ key, Usable (lib.convert? (keys.type key)) (keys.path key) user default

/-- What the two configuration files come to. -/
def settled (user : Entries α) (values : keys.Values) : keys.Values :=
  fun key => chosen (lib.convert? (keys.type key)) (keys.path key) user
    (values key)

variable {keys lib}

theorem settled_of_odd {key : Key} (odd : (keys.path key).length % 2 = 1)
    (user : Entries α) (values : keys.Values) :
    keys.settled lib user values key =
      (keys.in? lib user key).getD (values key) := by
  refine if_neg ?_
  rw [odd]
  decide

theorem settled_of_even {key : Key} (even : (keys.path key).length % 2 = 0)
    (user : Entries α) (values : keys.Values) :
    keys.settled lib user values key = values key := if_pos even

theorem holds_mergeConfig {user default : Toml.Table α} {values : keys.Values}
    (holds : keys.Holds lib default.entries values)
    (usable : keys.AllUsable lib user.entries default.entries) :
    keys.Holds lib (mergeConfig user default).2.entries
      (keys.settled lib user.entries values) := fun key =>
  at?_mergeConfig (usable key) (holds key)

end Keys

/-- A constructor, and what it initialises its members with where the
configuration holds every key and the system grants what these ask it for. -/
structure Constructor (lib : TomlLibrary α) (Key Members : Type) extends
    Keys Key where
  construct : Entries α → Reading Members
  members : toKeys.Values → Members
  granted : toKeys.Values → Prop
  construct_eq : ∀ {config values}, toKeys.Holds lib config values →
    granted values → (construct config).value = some (members values)

namespace Constructor

variable {lib : TomlLibrary α} {Key Members : Type}
  (maker : Constructor lib Key Members)

/-- The constructor under `new`. -/
def create (config : Toml.Table α) : Except Halt Members :=
  (maker.construct config.entries).result

variable {maker} in
theorem create_eq {config : Toml.Table α} {values : maker.Values}
    (holds : maker.Holds lib config.entries values)
    (granted : maker.granted values) :
    maker.create config = .ok (maker.members values) := by
  have made := maker.construct_eq holds granted
  rw [Reading.value] at made
  rw [create]
  cases result : (maker.construct config.entries).result with
  | error halt =>
      rw [result] at made
      cases made
  | ok members =>
      rw [result] at made
      exact congrArg Except.ok (Option.some.inj made)

variable {maker} {build : Build α Members}
  {parseFile : String → Except String (Toml.Table α)}
  {projectPath userConfigPath : String} {user default : Toml.Table α}
  {values : maker.Values}

/-- From the path of the user's file to the members of the robot. -/
theorem robotCreate_settled (constructs : build.construct = maker.create)
    (parsed : parseFile userConfigPath = .ok user)
    (shipped : parseFile (projectPath ++ build.defaultPath) = .ok default)
    (named : at? lib.string? ["robot"] user.entries = some build.robotName)
    (holds : maker.Holds lib default.entries values)
    (usable : maker.AllUsable lib user.entries default.entries)
    (granted : maker.granted (maker.settled lib user.entries values)) :
    robotCreate build lib.string? parseFile projectPath userConfigPath =
      .ok (maker.members (maker.settled lib user.entries values)) := by
  have constructed : build.construct (mergeConfig user default).2 =
      .ok (maker.members (maker.settled lib user.entries values)) := by
    rw [constructs]
    exact create_eq (Keys.holds_mergeConfig holds usable) granted
  obtain ⟨leaf, found, name⟩ := Option.bind_eq_some_iff.mp named
  obtain ⟨node, here, reached⟩ := Option.bind_eq_some_iff.mp found
  cases node with
  | table inner => cases reached
  | leaf robot =>
      obtain rfl := Option.some.inj reached
      have called : robotNameOf lib.string? (.leaf robot) = build.robotName :=
        congrArg (Option.getD · "err") name
      have created : createFrom build lib.string? parseFile projectPath user =
          .ok (maker.members (maker.settled lib user.entries values)) := by
        rw [createFrom, here]
        dsimp only
        rw [if_pos called, shipped]
        exact congrArg (Except.mapError _) constructed
      rw [robotCreate, parsed]
      exact created

end Constructor

section Library

/-! The values that the files of the program hold, as the library reads them. -/

inductive TomlValue where
  | integer (value : ℤ)
  | floating (value : ℚ)
  | text (value : String)
  | array (elems : List TomlValue)

def TomlValue.float? : TomlValue → Option ℚ
  | .integer value => some value
  | .floating value => some value
  | .text _ | .array _ => none

def TomlValue.library : TomlLibrary TomlValue where
  int?
    | .integer value => some value
    | .floating _ | .text _ | .array _ => none
  float? := float?
  string?
    | .text value => some value
    | .integer _ | .floating _ | .array _ => none
  floats :=
    { array? := fun
        | .array elems => some elems
        | .integer _ | .floating _ | .text _ => none
      cast? := float?
      required := "float"
      given := fun _ => "toml::node" }

end Library

end RoboBand.App

import RoboBand.Util.Config

namespace RoboBand.App

open RoboBand.Data RoboBand.Util

variable {α Robot : Type*}

/-- Why there is no robot: `robotCreate` has logged it and returns `nullptr`,
or it does not return. -/
inductive CreateError where
  | parsing (err : String)
  | noRobotKey
  | robotNotString
  | robotUnknown
  | initialization (what : String)
  | exited (status : ℤ)
  | undefined

def CreateError.ofHalt : Halt → CreateError
  | .throws what => .initialization what
  | .exits status => .exited status
  | .undefined => .undefined

def CreateError.log (userConfigPath : String) : CreateError → List String
  | .parsing err =>
      ["Parsing your config \"" ++ userConfigPath ++ "\" failed!", err]
  | .noRobotKey =>
      ["Your config \"" ++ userConfigPath ++
        "\" does not contain a key named \"robot\"!"]
  | .robotNotString =>
      ["The value paired with the key \"robot\" in your config \"" ++
        userConfigPath ++ "\" is not a string!"]
  | .robotUnknown =>
      ["The \"robot\" you specified in the config \"" ++ userConfigPath ++
        "\" has no corresponding implementation!"]
  | .initialization what => ["Robot initialization failed: " ++ what]
  | .exited _ | .undefined => []

/-- The one robot that a build of the program can create. -/
structure Build (α Robot : Type*) where
  robotName : String
  defaultPath : String
  construct : Toml.Table α → Except Halt Robot

def aokeeBuild (construct : Toml.Table α → Except Halt Robot) :
    Build α Robot where
  robotName := "Aokee"
  defaultPath := "/app/Aokee/default.toml"
  construct := construct

section Create

variable (build : Build α Robot) (string? : α → Option String)
  (parseFile : String → Except String (Toml.Table α))
  (projectPath userConfigPath : String)

/-- `node.value_or(std::string_view("err"))`. -/
def robotNameOf : Toml.Node α → String
  | .leaf value => (string? value).getD "err"
  | .table _ => "err"

def createFrom (userConfig : Toml.Table α) : Except CreateError Robot :=
  match userConfig.entries.lookup "robot" with
  | none => .error .noRobotKey
  | some node =>
      let robotName := robotNameOf string? node
      if robotName = build.robotName then
        let config := (parseFile (projectPath ++ build.defaultPath)).mapError
          .throws
        (config.bind fun config =>
          build.construct (mergeConfig userConfig config).2).mapError .ofHalt
      else if robotName = "err" then
        .error .robotNotString
      else
        .error .robotUnknown

def robotCreate : Except CreateError Robot :=
  ((parseFile userConfigPath).mapError .parsing).bind
    (createFrom build string? parseFile projectPath)

variable {build string? parseFile projectPath userConfigPath}

private theorem exists_of_bind_ok {ε β γ : Type*} {first : Except ε β}
    {next : β → Except ε γ} {result : γ}
    (ok : first.bind next = .ok result) :
    ∃ value, first = .ok value ∧ next value = .ok result := by
  cases first with
  | error err => cases ok
  | ok value => exact ⟨value, rfl, ok⟩

private theorem ok_of_mapError_ok {ε ε' β : Type*} {first : Except ε β}
    {map : ε → ε'} {result : β} (ok : first.mapError map = .ok result) :
    first = .ok result := by
  cases first with
  | error err => cases ok
  | ok value =>
      cases ok
      rfl

theorem robotCreate_ok {robot : Robot}
    (created : robotCreate build string? parseFile projectPath
      userConfigPath = .ok robot) :
    ∃ userConfig config, parseFile userConfigPath = .ok userConfig ∧
      parseFile (projectPath ++ build.defaultPath) = .ok config ∧
      build.construct (mergeConfig userConfig config).2 = .ok robot := by
  obtain ⟨userConfig, user, created⟩ := exists_of_bind_ok created
  refine ⟨userConfig, ?_⟩
  unfold createFrom at created
  split at created
  · cases created
  · rename_i node _
    by_cases named : robotNameOf string? node = build.robotName
    · simp only [named, if_true] at created
      obtain ⟨config, default, constructed⟩ :=
        exists_of_bind_ok (ok_of_mapError_ok created)
      exact ⟨config, ok_of_mapError_ok user, ok_of_mapError_ok default,
        constructed⟩
    · simp only [named, if_false] at created
      split at created <;> cases created

/-- Where no swapped call loses a setting, the robot sees every leaf the user
set. -/
theorem robotCreate_user_leaf {robot : Robot}
    (created : robotCreate build string? parseFile projectPath
      userConfigPath = .ok robot)
    (harmless : ∀ userConfig config,
      parseFile userConfigPath = .ok userConfig →
      parseFile (projectPath ++ build.defaultPath) = .ok config →
      SwapHarmless false userConfig.entries config.entries) :
    ∃ userConfig config, parseFile userConfigPath = .ok userConfig ∧
      build.construct config = .ok robot ∧
      ∀ path value, userConfig.leafAt? path = some value →
        config.leafAt? path = some value := by
  obtain ⟨userConfig, config, user, default, constructed⟩ :=
    robotCreate_ok created
  rw [mergeConfig_of_swapHarmless (harmless _ _ user default)] at constructed
  exact ⟨userConfig, deepMerge userConfig config, user, constructed,
    fun _ _ set => leafAt?_deepMerge set config⟩

end Create

end RoboBand.App

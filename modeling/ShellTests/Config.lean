/-!
# The parts of a config that the handlers read

Each structure keeps the fields of its pydantic model that the modelled code
looks at, under the model's names.
-/

namespace ShellTests

/-- What `shell-definition.yaml` in a shell archive says. -/
structure ShellDefinition where
  model : String
  templateName : String
  deriving DecidableEq, Repr

structure ShellConfig where
  name : String
  path : String
  -- the archive at `path`; `none` where it has no readable definition
  definition : Option ShellDefinition
  dependenciesPath : Option String := none
  extraStandardsPaths : List String := []
  deriving DecidableEq, Repr

inductive ResourceCommandMode
  | enable
  | config
  deriving DecidableEq, Repr

structure ResourceCommand where
  command : String
  mode : ResourceCommandMode := .enable
  deriving DecidableEq, Repr

structure ResourceConfig where
  name : String
  shellName : String
  deviceIp : Option String := none
  attributes : List (String × String) := []
  isFirstGen : Bool := false
  networkingAppName : Option String := none
  runTests : Bool := true
  setupCommands : List ResourceCommand := []
  teardownCommands : List ResourceCommand := []
  deriving DecidableEq, Repr

structure SandboxConfig where
  name : String
  resourceNames : List String := []
  blueprintName : Option String := none
  specificVersion : Option String := none
  deriving DecidableEq, Repr

structure MainConfig where
  shellsConf : List ShellConfig
  resourcesConf : List ResourceConfig
  sandboxesConf : List SandboxConfig := []
  -- `cs_conf.os_user and cs_conf.os_password`: whether there is an SMB handler
  hasCsSmb : Bool := false
  deriving DecidableEq, Repr

structure CloudShellConfig where
  host : String
  user : String
  password : String
  osUser : String := ""
  osPassword : String := ""
  domain : String := "Global"
  deriving DecidableEq, Repr

structure NetworkingAppConf where
  name : String
  blueprintName : String
  deriving DecidableEq, Repr

structure CSonDoConfig where
  csVersion : String := "CloudShell 9.3 GA - IL"
  deleteCs : Bool := true
  csSpecificVersion : String := ""
  deriving DecidableEq, Repr

structure DoConfig where
  csOnDoConf : Option CSonDoConfig := none
  networkingApps : List NetworkingAppConf := []
  deriving DecidableEq, Repr

structure DeploymentResourceConfig where
  name : String
  blueprintName : String
  deriving DecidableEq, Repr

end ShellTests

import Attribution.Json.Reader
import Attribution.Settings.Basic
import Attribution.Settings.EnvFile
import Attribution.Settings.Value
import Attribution.Text.Lowercase

namespace Attribution

/-- Where a list that is no JSON was found. -/
inductive SettingsSource where
  | environment
  | file
  deriving DecidableEq, Repr

def SettingsSource.name : SettingsSource → String
  | .environment => "EnvSettingsSource"
  | .file => "DotEnvSettingsSource"

/-- The list of sockets, the one setting that is written in JSON. -/
def Settings.socketsName : String := "CONTAINERD_SOCKETS"

def SettingsSource.message (source : SettingsSource) : String :=
  "error parsing value for field \"" ++ Settings.socketsName ++ "\" from source \"" ++ source.name ++
    "\""

/-- What is said of a list that opens something too deep. -/
def depthMessage (opened : Json.Nest) : String :=
  "maximum recursion depth exceeded while decoding a JSON " ++
    (match opened with | .array => "array" | .object => "object") ++ " from a unicode string"

/-- Why settings could not be loaded. -/
inductive SettingsError where
  | unreadable (source : SettingsSource)
  /-- The list of sockets nests too deep to be read. -/
  | tooDeep (opened : Json.Nest)
  | invalid (complaints : List Complaint)
  deriving DecidableEq, Repr

/-- A line for each complaint, with the place it is about. -/
def SettingsError.message : SettingsError → String
  | .unreadable source => source.message
  | .tooDeep opened => depthMessage opened
  | .invalid complaints =>
    "\n".intercalate (complaints.map fun c =>
      ".".intercalate (c.loc.map Place.text) ++ ": " ++ c.issue.message)

namespace Settings

/-- The mark in front of the names in the environment. -/
def mark : String := "ctrident_"

end Settings

/-- The names of a setting. -/
structure SettingNames where
  /-- The setting's own name. -/
  own : String
  /-- The names that a value may be given under; the first one that is used counts. -/
  given : List String
  /-- The names in the environment, in small letters, each with the name above that it stands for. -/
  outer : List (String × String)

namespace Settings

/-- A setting that is known by its own name only. -/
def plainNames (own : String) : SettingNames := ⟨own, [own], [(mark ++ Text.lowercase own, own)]⟩

def hostRootNames : SettingNames where
  own := "HOST_ROOT"
  given := ["CTRIDENT_HOST_ROOT", "HOST_ROOT"]
  outer := [("ctrident_host_root", "CTRIDENT_HOST_ROOT"), ("host_root", "HOST_ROOT")]

/-- The names of all settings. -/
def names : List SettingNames :=
  hostRootNames :: (["CGROUP_ROOT", "PROC_ROOT", socketsName, "CONTAINERD_NAMESPACE",
    "RUNTIME_TIMEOUT_MS", "LABEL_MAX_LENGTH", "LOG_LEVEL"].map plainNames)

end Settings

namespace SettingNames

/-- The first of the names that has a value, with the value. -/
def find? (n : SettingNames) (values : Assoc String Json) : Option (String × Json) :=
  n.given.findSome? fun name => (Assoc.find? values name).map fun value => (name, value)

/-- The names behind the first one that have a value too. -/
def spare (n : SettingNames) (values : Assoc String Json) : List String :=
  (n.given.filter fun name => (Assoc.find? values name).isSome).drop 1

/-- The first of the names among those that values are given under, as it is written. -/
def written? (n : SettingNames) (given : List (String × Json)) : Option String :=
  n.given.find? fun name => (Json.lookup? given name).isSome

/-- Whether a name is one of the setting's in some spelling. -/
def admits (n : SettingNames) (name : String) : Bool :=
  n.given.any fun known => Text.lowercase known == Text.lowercase name

/-- The value given directly under a name as it is written, or else in another spelling. -/
def spelled? (given : List (String × Json)) (name : String) : Option Json :=
  (Json.lookup? given name).or
    ((given.find? fun p => Text.lowercase p.1 == Text.lowercase name).map (·.2))

/-- The value given directly under the first of the names that is used in any spelling. -/
def directly? (n : SettingNames) (given : List (String × Json)) : Option Json :=
  n.given.findSome? (spelled? given)

/-- The values in which a name that is given directly as it is written stands for all names of the
setting. -/
def settle (n : SettingNames) (given : List (String × Json)) (values : Assoc String Json) :
    Assoc String Json :=
  match n.written? given, n.find? values with
  | some name, some (_, value) => (values.filter fun p => !n.given.contains p.1) ++ [(name, value)]
  | _, _ => values

end SettingNames

namespace Settings

/-- The documents that a list may be written in: at most 980 levels deep, whole numbers of at most 4300
digits. -/
def dialect : Json.Dialect := ⟨some 980, some 4300, none, true⟩

/-- The values of a source, the list read as JSON. -/
def ofSource (source : SettingsSource) (values : Assoc String (Option String)) :
    Except SettingsError (Assoc String Json) :=
  names.foldlM (fun found n =>
    match n.outer.findSome? fun (key, name) => (Assoc.find? values key).join.map fun s => (name, s) with
    | none => .ok found
    | some (name, s) =>
      if n.own = socketsName then
        match Json.read dialect s.toList with
        | .error .malformed => .error (.unreadable source)
        | .error (.tooDeep opened) => .error (.tooDeep opened)
        | .ok .null => .ok found
        | .ok value => .ok (found ++ [(name, value)])
      else .ok (found ++ [(name, .text s)])) []

def lowerKeys {α : Type} (values : List (String × α)) : Assoc String α :=
  Assoc.ofPairs (values.map fun p => (Text.lowercase p.1, p.2))

/-- Whether the file may use a name, given in small letters. -/
def isFileName (key : String) : Bool := names.any fun n => n.outer.any fun (outer, _) => outer == key

/-- The names in a file that nobody knows. Names without a value do not count. -/
def strangeFileNames (values : Assoc String (Option String)) : List String :=
  values.filterMap fun (key, value) =>
    match value with
    | none => none
    | some s => if s = "" || isFileName key then none else some key

/-- The values given directly, each under the first name of its setting. -/
def ofGiven (given : List (String × Json)) : Assoc String Json :=
  names.filterMap fun n =>
    match n.given, n.directly? given with
    | name :: _, some value => some (name, value)
    | _, _ => none

/-- The names given directly that are none of any setting. -/
def strangeGivenNames (given : List (String × Json)) : List String :=
  (given.map (·.1)).filter fun name => !names.any fun n => n.admits name

/-- The value of a setting, or its default, or the complaints about it. -/
def field {α : Type} (values : Assoc String Json) (n : SettingNames) (default : α)
    (read : List Place → Json → Except (List Complaint) α) : Except (List Complaint) α :=
  match n.find? values with
  | none => .ok default
  | some (name, value) => read [.member name] value

/-- A reader of a single value, which complains about the place of the setting. -/
def single {α : Type} (read : Json → Except Issue α) (loc : List Place) (value : Json) :
    Except (List Complaint) α :=
  match read value with
  | .ok a => .ok a
  | .error issue => .error [⟨loc, issue⟩]

def complaintsOf {α : Type} : Except (List Complaint) α → List Complaint
  | .ok _ => []
  | .error complaints => complaints

/-- Complaints in the order of the texts of their places. -/
def sortComplaints (complaints : List Complaint) : List Complaint :=
  complaints.mergeSort fun a b => decide (¬ b.loc.map Place.text < a.loc.map Place.text)

/-- The settings of the values found for them, if all are valid and no name is strange. -/
def ofValues (values : Assoc String Json) (strange : List String) : Except SettingsError Settings :=
  let defaults : Settings := {}
  let hostRoot := field values hostRootNames defaults.hostRoot (single Setting.text)
  let cgroupRoot := field values (plainNames "CGROUP_ROOT") defaults.cgroupRoot (single Setting.text)
  let procRoot := field values (plainNames "PROC_ROOT") defaults.procRoot (single Setting.text)
  let sockets := field values (plainNames socketsName) defaults.containerdSockets Setting.socketNames
  let ns := field values (plainNames "CONTAINERD_NAMESPACE") defaults.containerdNamespace (single Setting.text)
  let timeout :=
    field values (plainNames "RUNTIME_TIMEOUT_MS") defaults.runtimeTimeoutMs
      (single (Setting.integerThat (0 < ·) (.greaterThan 0)))
  let labelMax :=
    field values (plainNames "LABEL_MAX_LENGTH") defaults.labelMaxLength
      (single (Setting.integerThat (0 ≤ ·) (.greaterThanEqual 0)))
  let logLevel := field values (plainNames "LOG_LEVEL") defaults.logLevel (single Setting.text)
  match strange, hostRoot, cgroupRoot, procRoot, sockets, ns, timeout, labelMax, logLevel with
  | [], .ok hostRoot, .ok cgroupRoot, .ok procRoot, .ok containerdSockets,
      .ok containerdNamespace, .ok runtimeTimeoutMs, .ok labelMaxLength, .ok logLevel =>
    .ok { hostRoot, cgroupRoot, procRoot, containerdSockets, containerdNamespace, runtimeTimeoutMs,
          labelMaxLength, logLevel }
  | _, _, _, _, _, _, _, _, _ =>
    .error (.invalid (sortComplaints
      (complaintsOf hostRoot ++ complaintsOf cgroupRoot ++ complaintsOf procRoot ++
        complaintsOf sockets ++ complaintsOf ns ++ complaintsOf timeout ++ complaintsOf labelMax ++
        complaintsOf logLevel ++ strange.map fun name => ⟨[.member name], .extraForbidden⟩)))

/-- The first table's value of every name, or else the second's. -/
def overlay (first second : Assoc String Json) : Assoc String Json :=
  first ++ second.filter fun p => (Assoc.find? first p.1).isNone

/-- The settings of an environment, the text of a file and values given directly. -/
def load (environment : Assoc String String) (file : Option String) (given : List (String × Json)) :
    Except SettingsError Settings := do
  let ofEnvironment ←
    ofSource .environment (lowerKeys (environment.map fun p => (p.1, some p.2)))
  let fileValues := lowerKeys ((file.map (EnvFile.parse environment)).getD [])
  let ofFile ← ofSource .file fileValues
  let values :=
    names.foldl (fun values n => n.settle given values)
      (overlay (ofGiven given) (overlay ofEnvironment ofFile))
  ofValues values
    (strangeGivenNames given ++ names.flatMap (·.spare values) ++ strangeFileNames fileValues).eraseDups

end Settings
end Attribution

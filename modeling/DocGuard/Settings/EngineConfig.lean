import DocGuard.Identity.Credential
import DocGuard.Settings.Filter

/-! The configuration of engines: a sequence of changes to the defaults, and the settings that one
engine gets from it. -/
namespace DocGuard

/-- The cloud that an engine talks to. -/
inductive Cloud where
  | commercial
  | custom (protectionUrl policyUrl : String)
  deriving DecidableEq, Repr

/-- What is decrypted of a container such as a mail: itself alone, or all that it holds too. -/
inductive ContainerDecryption where
  | top
  | all
  deriving DecidableEq, Repr

/-- The engine's name of the mode. -/
def ContainerDecryption.name : ContainerDecryption → String
  | top => "Top"
  | all => "All"

/-- The defaults of all engines of a host. -/
structure EngineConfig where
  cloud : Cloud := .commercial
  locale : String := "en-US"
  protectionOnly : Bool := true
  policyFile : Option String := none
  enableMsg : Bool := false
  enablePowerBi : Bool := false
  keepPdfLinearization : Bool := false
  decryptTopOnly : Bool := false
  decryptAll : Bool := false
  enabled : List LabelFilter := []
  disabled : List LabelFilter := []
  deriving DecidableEq, Repr

/-- What one engine is made with. The user that it is bound to stands beside the authentication. -/
structure EngineSettings where
  identity : Option String
  auth : AuthContext
  cloud : Cloud
  locale : String
  protectionOnly : Bool
  functionality : List (LabelFilter × Bool)
  customSettings : List (String × String)
  deriving DecidableEq

namespace EngineConfig

/-- A change to a configuration. The names in the last two stand in one text, divided by commas. -/
inductive Change where
  | endpoints (protectionUrl policyUrl : String)
  | locale (name : String)
  | protectionOnly (on : Bool)
  | policyFile (path : String)
  | enableMsg (on : Bool)
  | enablePowerBi (on : Bool)
  | keepPdfLinearization (on : Bool)
  | decryptTopOnly (on : Bool)
  | decryptAll (on : Bool)
  | enable (names : String)
  | disable (names : String)
  deriving DecidableEq, Repr

/-- The configuration after a change. Endpoints count only when both are given; names of filters are
added to those given before. -/
def apply (c : EngineConfig) : Change → Except Error EngineConfig
  | .endpoints protectionUrl policyUrl =>
    .ok { c with
      cloud := if protectionUrl.isEmpty || policyUrl.isEmpty then .commercial
        else .custom protectionUrl policyUrl }
  | .locale name => .ok { c with locale := name }
  | .protectionOnly on => .ok { c with protectionOnly := on }
  | .policyFile path => .ok { c with policyFile := some path }
  | .enableMsg on => .ok { c with enableMsg := on }
  | .enablePowerBi on => .ok { c with enablePowerBi := on }
  | .keepPdfLinearization on => .ok { c with keepPdfLinearization := on }
  | .decryptTopOnly on => .ok { c with decryptTopOnly := on }
  | .decryptAll on => .ok { c with decryptAll := on }
  | .enable names => do return { c with enabled := c.enabled ++ (← LabelFilter.parseList names) }
  | .disable names => do return { c with disabled := c.disabled ++ (← LabelFilter.parseList names) }

/-- The configuration after some changes. The first that fails decides the error. -/
def applyAll (c : EngineConfig) (changes : List Change) : Except Error EngineConfig :=
  changes.foldlM apply c

/-- The mode of decryption; both modes at once are refused. -/
def containerDecryption (c : EngineConfig) : Except Error (Option ContainerDecryption) :=
  match c.decryptTopOnly, c.decryptAll with
  | true, true => .error (.invalidArgument .bothDecryptionModes)
  | true, false => .ok (some .top)
  | false, true => .ok (some .all)
  | false, false => .ok none

/-- Switches a filter, in the stead of what was set for it before. -/
def switch (set : List (LabelFilter × Bool)) (filter : LabelFilter) (on : Bool) :
    List (LabelFilter × Bool) :=
  set.filter (·.1 ≠ filter) ++ [(filter, on)]

/-- Each filter that is named, on or off. The disabled ones come last and so win. -/
def functionality (c : EngineConfig) : List (LabelFilter × Bool) :=
  let switches := c.enabled.map (·, true) ++ c.disabled.map (·, false)
  switches.foldl (fun set (filter, on) => switch set filter on) []

def flagEntry (key : String) (on : Bool) : List (String × String) :=
  if on then [(key, "true")] else []

/-- The settings of one engine, given the text of the policy file if one is configured. The keys of
the custom settings ascend. -/
def settings (c : EngineConfig) (policy : Option String) (auth : AuthContext) :
    Except Error EngineSettings := do
  let decryption ← c.containerDecryption
  return {
    identity := auth.identity
    auth
    cloud := c.cloud
    locale := c.locale
    protectionOnly := c.protectionOnly
    functionality := c.functionality
    customSettings :=
      (decryption.map fun mode => ("container_decryption_option", mode.name)).toList
        ++ flagEntry "enable_msg_file_type" c.enableMsg
        ++ flagEntry "enable_power_bi_file_type" c.enablePowerBi
        ++ flagEntry "keep_pdf_linearization" c.keepPdfLinearization
        ++ (policy.map fun text => ("policy_data", text)).toList }

end EngineConfig
end DocGuard

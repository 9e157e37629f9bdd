import DocGuard.Host.Profiles
import DocGuard.Text.Quoted

/-! A line on the state of a host for diagnosis. -/
namespace DocGuard

/-- The fields of a value with a name, on one line. -/
def summaryOf (name : String) (fields : List (String × String)) : String :=
  let parts := fields.map fun (key, text) => key ++ ": " ++ text
  name ++ " \x7b " ++ ", ".intercalate parts ++ " \x7d"

def summaryOfOption {α : Type} (text : α → String) : Option α → String
  | some value => "Some(" ++ text value ++ ")"
  | none => "None"

/-- A list of filters by their names. -/
def summaryOfFilters (filters : List LabelFilter) : String :=
  "[" ++ ", ".intercalate (filters.map LabelFilter.name) ++ "]"

def Cloud.summary : Cloud → String
  | commercial => "Commercial"
  | custom protectionUrl policyUrl =>
    summaryOf "Custom" [("protection_base_url", Text.quoted protectionUrl),
      ("policy_base_url", Text.quoted policyUrl)]

def EngineConfig.summary (c : EngineConfig) : String :=
  summaryOf "EngineConfig" [
    ("cloud", c.cloud.summary),
    ("locale", Text.quoted c.locale),
    ("protection_only", toString c.protectionOnly),
    ("policy_file", summaryOfOption Text.quoted c.policyFile),
    ("enable_msg", toString c.enableMsg),
    ("enable_power_bi", toString c.enablePowerBi),
    ("keep_pdf_linearization", toString c.keepPdfLinearization),
    ("decrypt_top_only", toString c.decryptTopOnly),
    ("decrypt_all", toString c.decryptAll),
    ("enabled_functionality", summaryOfFilters c.enabled),
    ("disabled_functionality", summaryOfFilters c.disabled)]

def Diagnostics.summary (d : Diagnostics) : String :=
  summaryOf "DiagnosticSettings" [
    ("audit_priority_enhanced", toString d.auditEnhanced),
    ("max_teardown_time", summaryOfOption Duration.text d.maxTeardown)]

/-- A line on the host. Counting the profiles takes their lock. -/
def Host.summary : Action String := do
  let count ← profileCount
  let host ← Action.get
  return summaryOf "ProcessContext" [
    ("engine_config", host.config.engine.summary),
    ("diagnostics", host.config.diagnostics.summary),
    ("cache_storage", host.config.cache.name),
    ("profiles", toString count),
    ("shut_down", toString host.isShutDown)]

end DocGuard

import DocGuard.Host.Basic

/-! The profiles of a host: each is loaded once, at the first request of its application, and all
are released when the engine is shut down. -/
namespace DocGuard.Host
open DocGuard.Action

/-- Takes the lock of the profiles for an action. A panic in it poisons the lock for good; whoever
takes a poisoned lock says so and goes on. -/
def locked {α : Type} (action : Action α) : Action α := fun host => do
  if host.isPoisoned then Program.log .warn "Profile cache mutex was poisoned, recovering"
  match ← action host with
  | (.panic, after) => return (.panic, { after with isPoisoned := true })
  | ended => return ended

def profileCount : Action Nat :=
  locked do return (← get).profiles.length

/-- Asks for consent on behalf of an application. -/
def askConsent (applicationId : String) : Action Consent := do
  match (← get).config.consent with
  | .fixed answer => return answer
  | .provider => call (.consent applicationId)

/-- Loads the profile of an application and keeps it. Without consent it sends no telemetry. -/
def loadProfile (application : Application) : Action ProfileHandle := do
  let consent ← askConsent application.id
  let config := (← get).config
  let loaded ← call (.loadProfile {
    application
    cache := config.cache
    telemetry := consent.isGranted
    diagnostics := config.diagnostics })
  let profile ← ofExcept loaded.result
  modify fun host => { host with profiles := host.profiles ++ [(application.id, profile)] }
  return profile

/-- The profile under an id, loaded if it is not there. The lock is to be held. -/
def findOrLoad (application : Application) : Action ProfileHandle := do
  match (← get).profiles.lookup application.id with
  | some profile => return profile
  | none => loadProfile application

/-- Fails once the engine is shut down. -/
def checkRunning : Action Unit := do
  if (← get).isShutDown then fail (.engine .shutDown)

/-- The profile of an application. The lock is held while a profile is loaded. -/
def profile (application : Application) : Action ProfileHandle := do
  checkRunning
  ofExcept application.validate
  locked (findOrLoad application)

/-- Marks the engine as shut down and tells whether it was before. -/
def markShutDown : Action Bool := do
  let before := (← get).isShutDown
  modify fun host => { host with isShutDown := true }
  return before

def releaseProfiles : Action Unit :=
  locked (modify fun host => { host with profiles := [] })

/-- Shuts the engine down. Only the first time has an effect. The end of a host does the same. -/
def shutdown : Action Unit := do
  if !(← markShutDown) then
    releaseProfiles
    call (.shutdown (← get).config.diagnostics.maxTeardown)

end DocGuard.Host

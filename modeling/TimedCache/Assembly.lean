import TimedCache.Config
import TimedCache.Deployment.Basic
import TimedCache.Registry

/-!
# Assembling backends

Backends and registries are made from the settings of the cache.  A registry made from settings
holds the configured backend under the name `primary` and a small local backend under the name
`fallback`.  A backend that cannot be made is a failure; nothing takes its place.

## Main Definitions

* `Deployment.build` — makes the configured backend
* `Deployment.buildRegistry` — makes the registry of the configured and the fallback backend
-/

namespace TimedCache

/-- The name of the configured backend. -/
def primaryName : Bytes := utf8 "primary"

/-- The name of the local backend beside it. -/
def fallbackName : Bytes := utf8 "fallback"

/-- The options of the fallback backend. -/
def fallbackOptions : Options := ⟨.ofSecs 60, 100, utf8 "fallback:"⟩

namespace Deployment

/-- Makes a remote backend and puts it into the deployment. -/
def connect (deployment : Deployment) (settings : Remote.Settings) (options : Options)
    (dial : Remote.Address → Remote.Dial) : Except CacheError (Backend × Deployment) :=
  (Remote.connect settings options dial).map deployment.addRemote

/-- Makes the configured backend. -/
def build (deployment : Deployment) (config : CacheConfig)
    (dial : Remote.Address → Remote.Dial) : Except CacheError (Backend × Deployment) :=
  match config.kind with
  | .onServer =>
    match config.remote with
    | .ok settings => deployment.connect settings config.options dial
    | .error failure => .error failure
  | _ => .ok (deployment.addLocal config.options (.ofSecs config.sweepInterval))

/-- Makes the registry of the configured backend and the fallback backend. -/
def buildRegistry (deployment : Deployment) (config : CacheConfig)
    (dial : Remote.Address → Remote.Dial) : Except CacheError (Registry × Deployment) :=
  match deployment.build config dial with
  | .error failure => .error failure
  | .ok (primary, deployment) =>
    let (fallback, deployment) :=
      deployment.addLocal fallbackOptions (.ofSecs config.sweepInterval)
    let registry := (Registry.empty config.options).register primaryName primary
    .ok (registry.register fallbackName fallback, deployment)

end Deployment

end TimedCache

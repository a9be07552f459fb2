/-
  Launching a resolver from its configuration.

  The configuration is loaded, logging is set up by it unless the host has done that, and the resolver
  is made with a client of its own.
-/
import StreamResolver.Config.Load
import StreamResolver.Resolver.Basic

namespace StreamResolver.Resolver

/-- What a launch gives. -/
structure Launch where
  resolver : Resolver
  /-- Whether logging is set up by the configuration of the resolver. -/
  setsUpLogging : Bool
  events : List Event
  deriving Repr

/-- The event that announces a resolver. -/
def announcement (r : Resolver) : Event :=
  ⟨.info, "plugin_initialized",
    [("plugin", .str name), ("instance", .str r.inst.url),
     ("environment", .str r.config.environment.word)]⟩

/-- Launch a resolver. -/
def launch (sources : Config.Sources) (setUpLogging : Bool) : Except Config.LoadError Launch := do
  let r : Resolver := { config := ← Config.load sources, ownsClient := true }
  return ⟨r, setUpLogging, [announcement r]⟩

end StreamResolver.Resolver

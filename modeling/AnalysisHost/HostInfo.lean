import AnalysisHost.Text.Split

/-!
# What an analysis may know about its host

A read-only description of the host compiler: its name and version, the flags that no analysis
claimed (its options), and the paths of the units being compiled.

Options are looked up and not claimed. The two look-ups read the options by themselves, on their
texts, whatever the claims made of them before.
-/

namespace AnalysisHost

/-- The host compiler, as analyses see it. -/
structure HostInfo where
  name : String
  version : String
  /-- Unclaimed flags, in command-line order. -/
  options : List String := []
  /-- Paths of the units, in compilation order. -/
  units : List String := []
  deriving DecidableEq, Repr

namespace HostInfo

/-- Whether an option is present, bare or with an attached value. -/
def hasOption (host : HostInfo) (flag : String) : Bool :=
  host.options.any fun option =>
    option == flag ||
      match Text.after? flag.toList option.toList with
      | some ('=' :: _) => true
      | _ => false

/-- The value of the first occurrence of a flag: the attached one, or the token that follows,
whatever it looks like. -/
def valueIn (flag : String) : List String → Option String
  | [] => none
  | option :: rest =>
    if option = flag then rest.head?
    else
      match Text.after? flag.toList option.toList with
      | some ('=' :: value) => some (String.ofList value)
      | _ => valueIn flag rest

def optionValue (host : HostInfo) (flag : String) : Option String := valueIn flag host.options

end HostInfo

end AnalysisHost

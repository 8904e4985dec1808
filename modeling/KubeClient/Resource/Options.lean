import KubeClient.Client.Error
import KubeClient.Codec.Registry
import KubeClient.Scalar.Token

/-!
# Options of calls

Each kind of call has its options, which end up in the query of its request, in a fixed order.

* `ListOptions`, `WatchOptions`, `WriteOptions`, `PatchOptions`, `DeleteOptions`, `LogOptions` ;
* `StreamOptions` : the streams of a remote process;
* `PatchStrategy` : how a patch changes an object.
-/

namespace KubeClient

namespace Request

/-- Adds a number if there is one. -/
def addNat? (r : Request) (name : String) (n : Option UInt32) : Request :=
  r.add? name (n.map fun n => toString n.toNat)

/-- Adds a signed number if there is one. -/
def addInt? (r : Request) (name : String) (n : Option Int64) : Request :=
  r.add? name (n.map fun n => toString n.toInt)

/-- The server checks the request but changes nothing. -/
def addDryRun (r : Request) (dryRun : Bool) : Request :=
  if dryRun then r.add "dryRun" "All" else r

end Request

/-- Which objects are listed, and how many at once. -/
structure ListOptions where
  labels : Option String := none
  fields : Option String := none
  limit : Option UInt32 := none
  continueToken : Option String := none
  timeout : Option UInt32 := none
  deriving DecidableEq, Inhabited

/-- Adds the options to the query. -/
def ListOptions.apply (o : ListOptions) (r : Request) : Request :=
  ((((r.add? "labelSelector" o.labels).add? "fieldSelector" o.fields).addNat? "limit" o.limit).add?
    "continue" o.continueToken).addNat? "timeoutSeconds" o.timeout

/-- Which objects are watched, and for how long. -/
structure WatchOptions where
  labels : Option String := none
  fields : Option String := none
  timeout : Option UInt32 := none
  bookmarks : Bool := true
  deriving DecidableEq, Inhabited

/-- Adds the options to the query. -/
def WatchOptions.apply (o : WatchOptions) (r : Request) : Request :=
  (((r.add? "labelSelector" o.labels).add? "fieldSelector" o.fields).addNat?
    "timeoutSeconds" o.timeout).addFlag "allowWatchBookmarks" o.bookmarks

/-- How an object is written, and by whom. -/
structure WriteOptions where
  dryRun : Bool := false
  manager : Option String := none
  deriving DecidableEq, Inhabited

/-- Adds the options to the query. -/
def WriteOptions.apply (o : WriteOptions) (r : Request) : Request :=
  (r.addDryRun o.dryRun).add? "fieldManager" o.manager

/-- How a patch changes an object. -/
inductive PatchStrategy
  /-- The manager's fields become those of the patch. -/
  | apply
  /-- A list of single changes. -/
  | json
  /-- Objects are merged and lists replaced. -/
  | merge
  /-- Objects are merged, and lists as their type says. -/
  | strategic
  deriving DecidableEq, Repr, Inhabited

/-- The content type that names a strategy. -/
def PatchStrategy.contentType : PatchStrategy → String
  | .apply => MediaType.applyPatch
  | .json => MediaType.jsonPatch
  | .merge => MediaType.mergePatch
  | .strategic => MediaType.strategicMergePatch

/-- How an object is patched, and by whom. -/
structure PatchOptions where
  dryRun : Bool := false
  manager : Option String := none
  force : Bool := false
  deriving DecidableEq, Inhabited

/-- Adds the options to the query, if they fit the strategy. -/
def PatchOptions.apply (o : PatchOptions) (s : PatchStrategy) (r : Request) :
    Except ConfigError Request :=
  if s = .apply ∧ o.manager = none then .error .applyWithoutManager
  else if o.force ∧ s ≠ .apply then .error .forceWithoutApply
  else .ok (((r.addDryRun o.dryRun).add? "fieldManager" o.manager).addFlag "force" o.force)

/-- How an object is deleted. -/
structure DeleteOptions where
  dryRun : Bool := false
  gracePeriod : Option UInt32 := none
  propagation : Option PropagationPolicy := none
  deriving DecidableEq, Inhabited

/-- Adds the options to the query. -/
def DeleteOptions.apply (o : DeleteOptions) (r : Request) : Request :=
  ((r.addDryRun o.dryRun).addNat? "gracePeriodSeconds" o.gracePeriod).add?
    "propagationPolicy" (o.propagation.map WireToken.wire)

/-- Which part of a log is read. -/
structure LogOptions where
  container : Option String := none
  tailLines : Option Int64 := none
  sinceSeconds : Option Int64 := none
  limitBytes : Option Int64 := none
  timestamps : Bool := false
  previous : Bool := false
  deriving DecidableEq, Inhabited

/-- Adds the options to the query. -/
def LogOptions.apply (o : LogOptions) (r : Request) : Request :=
  (((((r.add? "container" o.container).addInt? "tailLines" o.tailLines).addInt?
    "sinceSeconds" o.sinceSeconds).addInt? "limitBytes" o.limitBytes).addFlag
    "timestamps" o.timestamps).addFlag "previous" o.previous

/-- The streams of a remote process. -/
structure StreamOptions where
  container : Option String := none
  stdin : Bool := false
  stdout : Bool := true
  stderr : Bool := true
  tty : Bool := false
  deriving DecidableEq, Inhabited

/-- Adds the options to the query, if there is a stream at all. A terminal has no stream of its own
for errors. -/
def StreamOptions.apply (o : StreamOptions) (r : Request) : Except ConfigError Request :=
  if o.stdin || o.stdout || o.stderr then
    .ok (((((r.add? "container" o.container).addFlag "stdin" o.stdin).addFlag
      "stdout" o.stdout).addFlag "stderr" (o.stderr && !o.tty)).addFlag "tty" o.tty)
  else .error .noStreams

end KubeClient

import TrafficStats.Config.Files
import TrafficStats.Json.Decode
import TrafficStats.Text.Utf8
import TrafficStats.Unnamed.Tracker

/-!
# Configuration

A configuration says where the tables are pinned, how much traffic on unnamed interfaces
is worth an alert, whose traffic is foreground traffic, and how often the socket tags are
cleaned up. `Config.ofText` reads one from JSON: every field has a default, and a
configuration is accepted only if its threshold and its interval are positive.
-/

namespace TrafficStats

/-- Where the four tables are pinned. -/
structure MapPaths where
  detail : String
  device : String
  ifaceNames : String
  cookieTags : String
  deriving DecidableEq

def MapPaths.default : MapPaths where
  detail := "/sys/fs/bpf/netstats/map_stats"
  device := "/sys/fs/bpf/netstats/map_iface_stats"
  ifaceNames := "/sys/fs/bpf/netstats/map_iface_index_name"
  cookieTags := "/sys/fs/bpf/netstats/map_cookie_tag"

structure Config where
  maps : MapPaths
  unnamedAlertBytes : Int64
  foregroundOwners : List UInt32
  cleanIntervalSecs : UInt64
  deriving DecidableEq

def Config.default : Config where
  maps := .default
  unnamedAlertBytes := defaultAlertThreshold
  foregroundOwners := []
  cleanIntervalSecs := 60

/-- The seconds to wait between two cleanups, of which there is at least one. -/
def Config.cleanInterval (config : Config) : Nat :=
  max 1 config.cleanIntervalSecs.toNat

def MapPaths.steps (paths : MapPaths) : List PathSteps :=
  [paths.detail, paths.device, paths.ifaceNames, paths.cookieTags].map .ofString

/-- Whether two configurations say the same: their paths may be spelled differently. -/
def Config.agrees (a b : Config) : Bool :=
  a.maps.steps = b.maps.steps ∧ a.unnamedAlertBytes = b.unnamedAlertBytes ∧
    a.foregroundOwners = b.foregroundOwners ∧ a.cleanIntervalSecs = b.cleanIntervalSecs

/-! ## Reading -/

def signed64 : Json.IntegerRange :=
  ⟨"i64", -0x8000000000000000, 0x7FFFFFFFFFFFFFFF⟩

def unsigned32 : Json.IntegerRange := ⟨"u32", 0, 0xFFFFFFFF⟩

def unsigned64 : Json.IntegerRange := ⟨"u64", 0, 0xFFFFFFFFFFFFFFFF⟩

def MapPaths.fields : List (Json.Field MapPaths) :=
  let path := Json.readText "path string"
  [.of "detail" path fun paths p => { paths with detail := p },
    .of "device" path fun paths p => { paths with device := p },
    .of "iface_names" path fun paths p => { paths with ifaceNames := p },
    .of "cookie_tags" path fun paths p => { paths with cookieTags := p }]

def Config.fields : List (Json.Field Config) :=
  [.of "maps" (Json.readRecord "struct MapPaths" MapPaths.fields .default)
      fun config paths => { config with maps := paths },
    .of "unknown_iface_alert_bytes" (Json.readIntegerIn signed64)
      fun config i => { config with unnamedAlertBytes := .ofInt i },
    .of "foreground_owners" (Json.readList (Json.readIntegerIn unsigned32))
      fun config owners =>
        { config with foregroundOwners := owners.map fun i => .ofNat i.toNat },
    .of "clean_interval_secs" (Json.readIntegerIn unsigned64)
      fun config i => { config with cleanIntervalSecs := .ofNat i.toNat }]

inductive ConfigError where
  | unreadable (fault : Json.Fault)
  | thresholdNotPositive
  | intervalNotPositive
  deriving DecidableEq

/-- The sentences that explain a refused configuration, the general one first. -/
def ConfigError.chain : ConfigError → List String
  | .unreadable (.mismatch m) => ["failed to parse config JSON", m.message]
  | .unreadable _ => ["failed to parse config JSON"]
  | .thresholdNotPositive => ["unknown_iface_alert_bytes must be greater than zero"]
  | .intervalNotPositive => ["clean_interval_secs must be greater than zero"]

def Config.validated (config : Config) : Except ConfigError Config :=
  if config.unnamedAlertBytes ≤ 0 then .error .thresholdNotPositive
  else if config.cleanIntervalSecs = 0 then .error .intervalNotPositive
  else .ok config

def Config.ofText (text : String) : Except ConfigError Config :=
  let decoder := Json.readRecord "struct Config" Config.fields .default
  match Json.readDocument decoder text.toList with
  | .error fault => .error (.unreadable fault)
  | .ok config => config.validated

/-! ## Files -/

inductive LoadError where
  | unreadable (path : String) (fault : FileFault)
  | notText (path : String)
  | invalid (path : String) (cause : ConfigError)
  deriving DecidableEq

def LoadError.chain : LoadError → List String
  | .unreadable path fault => ["failed to read config at " ++ path, fault.message]
  | .notText path =>
    ["failed to read config at " ++ path, "stream did not contain valid UTF-8"]
  | .invalid path cause => ("invalid config at " ++ path) :: cause.chain

/-- Loads a configuration from the file at a path, given what reading the file came to. -/
def Config.ofFile (path : String) (content : Except FileFault FileContent) :
    Except LoadError Config :=
  match content with
  | .error fault => .error (.unreadable path fault)
  | .ok bytes =>
    match Text.ofUtf8? bytes with
    | none => .error (.notText path)
    | some text => (Config.ofText text).mapError (.invalid path)

end TrafficStats

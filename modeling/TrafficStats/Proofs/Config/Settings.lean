import TrafficStats.Config
import TrafficStats.Proofs.Json.Records
import TrafficStats.Store.Error

/-!
# The settings of a configuration

Somebody who writes a configuration chooses values for some of its fields (`ConfigChoice`) and
has much freedom in writing them down: the order of the members, others that nobody knows, blanks,
the spelling of strings, an object or a list. `ConfigText` describes all such texts, by the
settings they consist of. Settings change a configuration one after the other; those of a choice,
in whatever order, change the default one to the chosen one, and a field that is given twice is
refused.
-/

namespace TrafficStats

open Json

/-! ### Settings -/

/-- What a member of the object of paths says: where a table is pinned. -/
structure PathSetting where
  table : TableName
  path : String

/-- What a member of a configuration says. -/
inductive Setting where
  | maps (paths : List PathSetting)
  | unnamedAlertBytes (bytes : Int64)
  | foregroundOwners (owners : List UInt32)
  | cleanIntervalSecs (seconds : UInt64)

namespace PathSetting

def fieldNames : List String := ["detail", "device", "iface_names", "cookie_tags"]

def name (s : PathSetting) : String :=
  match s.table with
  | .detail => "detail"
  | .device => "device"
  | .ifaceNames => "iface_names"
  | .cookieTags => "cookie_tags"

def Writes (s : PathSetting) (t : List Char) : Prop := Quoted s.path t

end PathSetting

namespace Setting

def fieldNames : List String :=
  ["maps", "unknown_iface_alert_bytes", "foreground_owners", "clean_interval_secs"]

def name : Setting → String
  | .maps _ => "maps"
  | .unnamedAlertBytes _ => "unknown_iface_alert_bytes"
  | .foregroundOwners _ => "foreground_owners"
  | .cleanIntervalSecs _ => "clean_interval_secs"

def WritesOwner (owner : UInt32) (t : List Char) : Prop := t = (Text.natural owner.toNat).toList

inductive Writes : Setting → List Char → Prop
  | maps {paths : List PathSetting} {t : List Char}
      (h : Record PathSetting.name PathSetting.fieldNames PathSetting.Writes paths t) :
      Writes (.maps paths) t
  | unnamedAlertBytes (bytes : Int64) :
      Writes (.unnamedAlertBytes bytes) (Text.integer bytes.toInt).toList
  | foregroundOwners {owners : List UInt32} {t : List Char}
      (h : Enclosed '[' ']' WritesOwner owners t) :
      Writes (.foregroundOwners owners) t
  | cleanIntervalSecs (seconds : UInt64) :
      Writes (.cleanIntervalSecs seconds) (Text.natural seconds.toNat).toList

/-- Whether some field is given more than once in its object. -/
def Repeats (settings : List Setting) : Prop :=
  ¬ (settings.map name).Nodup ∨
    ∃ paths, .maps paths ∈ settings ∧ ¬ (paths.map PathSetting.name).Nodup

end Setting

/-- The texts of a configuration that consists of some settings. -/
inductive ConfigText (settings : List Setting) : List Char → Prop
  | document {b t r : List Char} (hb : Blanks b)
      (h : Record Setting.name Setting.fieldNames Setting.Writes settings t) (hr : Blanks r) :
      ConfigText settings (b ++ t ++ r)

/-! ### Choices -/

/-- The paths that somebody chooses. -/
structure PathChoice where
  detail : Option String
  device : Option String
  ifaceNames : Option String
  cookieTags : Option String

/-- The values that somebody chooses. -/
structure ConfigChoice where
  maps : Option PathChoice
  unnamedAlertBytes : Option Int64
  foregroundOwners : Option (List UInt32)
  cleanIntervalSecs : Option UInt64

namespace PathChoice

def paths (c : PathChoice) : MapPaths where
  detail := c.detail.getD MapPaths.default.detail
  device := c.device.getD MapPaths.default.device
  ifaceNames := c.ifaceNames.getD MapPaths.default.ifaceNames
  cookieTags := c.cookieTags.getD MapPaths.default.cookieTags

def settings (c : PathChoice) : List PathSetting :=
  [c.detail.map (⟨.detail, ·⟩), c.device.map (⟨.device, ·⟩), c.ifaceNames.map (⟨.ifaceNames, ·⟩),
    c.cookieTags.map (⟨.cookieTags, ·⟩)].reduceOption

end PathChoice

namespace ConfigChoice

/-- The chosen values, and the defaults otherwise. -/
def config (c : ConfigChoice) : Config where
  maps := c.maps.elim Config.default.maps PathChoice.paths
  unnamedAlertBytes := c.unnamedAlertBytes.getD Config.default.unnamedAlertBytes
  foregroundOwners := c.foregroundOwners.getD Config.default.foregroundOwners
  cleanIntervalSecs := c.cleanIntervalSecs.getD Config.default.cleanIntervalSecs

def settings (c : ConfigChoice) (paths : List PathSetting) : List Setting :=
  [c.maps.map fun _ => .maps paths, c.unnamedAlertBytes.map .unnamedAlertBytes,
    c.foregroundOwners.map .foregroundOwners,
    c.cleanIntervalSecs.map .cleanIntervalSecs].reduceOption

/-- Whether some settings make a choice, in whatever order. -/
def MadeBy (c : ConfigChoice) (settings : List Setting) : Prop :=
  ∃ paths, (∀ p ∈ c.maps, paths.Perm p.settings) ∧ settings.Perm (c.settings paths)

end ConfigChoice

/-! ### Putting settings into a configuration -/

def MapPaths.set (paths : MapPaths) (s : PathSetting) : MapPaths :=
  match s.table with
  | .detail => { paths with detail := s.path }
  | .device => { paths with device := s.path }
  | .ifaceNames => { paths with ifaceNames := s.path }
  | .cookieTags => { paths with cookieTags := s.path }

def Config.set (config : Config) : Setting → Config
  | .maps paths => { config with maps := paths.foldl MapPaths.set .default }
  | .unnamedAlertBytes bytes => { config with unnamedAlertBytes := bytes }
  | .foregroundOwners owners => { config with foregroundOwners := owners }
  | .cleanIntervalSecs seconds => { config with cleanIntervalSecs := seconds }

def MapPaths.put (paths : MapPaths) (s : PathSetting) : Except Fault MapPaths := .ok (paths.set s)

/-- Changes a value, unless a path is given twice. -/
def Config.put (config : Config) : Setting → Except Fault Config
  | .maps paths =>
    (putAll PathSetting.name MapPaths.put [] .default paths).map fun maps => { config with maps }
  | s => .ok (config.set s)

/-! ### Choices that are made -/

theorem MapPaths.set_comm (s s' : PathSetting) (paths : MapPaths) (differ : s.name ≠ s'.name) :
    (paths.set s).set s' = (paths.set s').set s := by
  obtain ⟨table, path⟩ := s
  obtain ⟨table', path'⟩ := s'
  cases table <;> cases table' <;> first | rfl | exact absurd rfl differ

theorem Config.set_comm (s s' : Setting) (config : Config) (differ : s.name ≠ s'.name) :
    (config.set s).set s' = (config.set s').set s := by
  cases s <;> cases s' <;> first | rfl | exact absurd rfl differ

theorem PathChoice.nodup_settings (c : PathChoice) : (c.settings.map PathSetting.name).Nodup := by
  obtain ⟨_ | _, _ | _, _ | _, _ | _⟩ := c <;>
    simp [settings, List.reduceOption, PathSetting.name]

theorem PathChoice.foldl_set_settings (c : PathChoice) :
    c.settings.foldl MapPaths.set .default = c.paths := by
  obtain ⟨_ | _, _ | _, _ | _, _ | _⟩ := c <;> rfl

theorem ConfigChoice.nodup_settings (c : ConfigChoice) (paths : List PathSetting) :
    ((c.settings paths).map Setting.name).Nodup := by
  obtain ⟨_ | _, _ | _, _ | _, _ | _⟩ := c <;>
    simp [settings, List.reduceOption, Setting.name]

theorem ConfigChoice.foldl_set_settings (c : ConfigChoice) {paths : List PathSetting}
    (given : ∀ p ∈ c.maps, paths.foldl MapPaths.set .default = p.paths) :
    (c.settings paths).foldl Config.set .default = c.config := by
  obtain ⟨_ | p, _ | _, _ | _, _ | _⟩ := c <;>
    simp_all [settings, config, List.reduceOption, Config.set, Config.default]

/-- The settings of a path choice, in any order, change the paths to the chosen ones. -/
theorem PathChoice.foldl_set_eq (c : PathChoice) {paths : List PathSetting}
    (made : paths.Perm c.settings) : paths.foldl MapPaths.set .default = c.paths := by
  rw [foldl_eq_of_perm made c.nodup_settings MapPaths.set_comm, c.foldl_set_settings]

theorem PathChoice.putAll_eq (c : PathChoice) {paths : List PathSetting}
    (made : paths.Perm c.settings) :
    putAll PathSetting.name MapPaths.put [] .default paths = .ok c.paths := by
  rw [← c.foldl_set_settings]
  exact putAll_of_perm made c.nodup_settings MapPaths.set_comm (fun _ _ _ => rfl) .default

/-- The settings of a choice, in any order, change the values to the chosen ones. -/
theorem ConfigChoice.putAll_eq (c : ConfigChoice) {settings : List Setting}
    (made : c.MadeBy settings) :
    putAll Setting.name Config.put [] .default settings = .ok c.config := by
  obtain ⟨paths, given, perm⟩ := made
  have puts (s : Setting) (mem : s ∈ c.settings paths) (config : Config) :
      config.put s = .ok (config.set s) := by
    cases s with
    | maps paths' =>
        obtain ⟨p, chosen, rfl⟩ : ∃ p, c.maps = some p ∧ paths = paths' := by
          simpa [ConfigChoice.settings, List.reduceOption_mem_iff, eq_comm (a := some _)] using mem
        rw [Config.put, p.putAll_eq (given p chosen), Config.set, p.foldl_set_eq (given p chosen)]
        rfl
    | unnamedAlertBytes bytes => rfl
    | foregroundOwners owners => rfl
    | cleanIntervalSecs seconds => rfl
  rw [← c.foldl_set_settings fun p chosen => p.foldl_set_eq (given p chosen)]
  exact putAll_of_perm perm (c.nodup_settings paths) Config.set_comm puts .default

/-- A value can be changed unless a path is given twice. -/
theorem Config.isRepetition_of_put {config : Config} {s : Setting} {fault : Fault}
    (h : config.put s = .error fault) : IsRepetition fault := by
  cases s with
  | maps paths =>
      rw [Config.put] at h
      cases put : putAll PathSetting.name MapPaths.put [] .default paths with
      | error e =>
          rw [put] at h
          cases h
          exact putAll_cases nofun put
      | ok paths' =>
          rw [put] at h
          cases h
  | unnamedAlertBytes bytes => cases h
  | foregroundOwners owners => cases h
  | cleanIntervalSecs seconds => cases h

/-- Paths that can be put into a configuration are about different tables. -/
theorem Config.nodup_of_put {config config' : Config} {paths : List PathSetting}
    (h : config.put (.maps paths) = .ok config') : (paths.map PathSetting.name).Nodup := by
  rw [Config.put] at h
  cases put : putAll PathSetting.name MapPaths.put [] .default paths with
  | error e =>
      rw [put] at h
      cases h
  | ok paths' =>
      obtain ⟨-, distinct, -⟩ := of_putAll_eq_ok put
      exact distinct

/-- Settings that give a field twice cannot be put into a configuration. -/
theorem Setting.Repeats.putAll_eq {settings : List Setting} (h : Setting.Repeats settings) :
    ∃ field, putAll Setting.name Config.put [] .default settings =
      .error (.mismatch (.repeatedField field)) := by
  cases put : putAll Setting.name Config.put [] Config.default settings with
  | error fault =>
      obtain ⟨field, rfl⟩ := putAll_cases (fun _ _ _ => Config.isRepetition_of_put) put
      exact ⟨field, rfl⟩
  | ok config =>
      obtain ⟨-, distinct, changed⟩ := of_putAll_eq_ok put
      obtain twice | ⟨paths, mem, twice⟩ := h
      · exact absurd distinct twice
      · obtain ⟨before, after, ok⟩ := changed _ mem
        exact absurd (Config.nodup_of_put ok) twice

end TrafficStats

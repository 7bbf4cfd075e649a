import TrafficStats.Proofs.Config.Settings
import TrafficStats.Proofs.Json.Writable

/-!
# Reading a configuration that was written

The fields of a configuration read what settings say, so a text is read by putting its settings
into the default configuration. It comes to the chosen configuration, with the defaults for what
was not chosen, however the choice is written down (`Config.ofText_written`). The other way round,
every configuration that makes sense can be written (`Config.exists_text`).
-/

namespace TrafficStats

open Json

/-! ### Fields that are read -/

theorem understands_paths :
    Understands MapPaths.fields PathSetting.name PathSetting.Writes MapPaths.put := by
  have reads (field : String) (put : MapPaths → String → MapPaths) {path : String} (t : List Char)
      (h : Quoted path t) (record : MapPaths) :
      Decoder.Reads ((Field.of field (readText "path string") put).read record) t
        (.ok (put record path)) := field_reads (readText_reads _ h) field put record
  refine ⟨by decide, ?_⟩
  rintro ⟨table, path⟩
  cases table with
  | detail => exact ⟨_, .head _, rfl, reads _ _⟩
  | device => exact ⟨_, .tail _ (.head _), rfl, reads _ _⟩
  | ifaceNames => exact ⟨_, .tail _ (.tail _ (.head _)), rfl, reads _ _⟩
  | cookieTags => exact ⟨_, .tail _ (.tail _ (.tail _ (.head _))), rfl, reads _ _⟩

theorem map_ofNat_owners (owners : List UInt32) :
    (owners.map fun owner => (owner.toNat : Int)).map (fun i => UInt32.ofNat i.toNat) = owners := by
  rw [List.map_map]
  refine (List.map_congr_left fun owner _ => ?_).trans (List.map_id owners)
  exact UInt32.ofNat_toNat

theorem understands_settings :
    Understands Config.fields Setting.name Setting.Writes Config.put := by
  refine ⟨by decide, ?_⟩
  intro s
  cases s with
  | maps paths =>
      refine ⟨_, .head _, rfl, fun t h config => ?_⟩
      cases h with
      | maps h =>
          have paths := readRecord_reads "struct MapPaths" understands_paths h .default
          exact field_reads paths _ _ config
  | unnamedAlertBytes bytes =>
      refine ⟨_, .tail _ (.head _), rfl, fun t h config => ?_⟩
      cases h
      have lower := bytes.le_toInt
      have upper := bytes.toInt_lt
      have reads : (readIntegerIn signed64).Reads (Text.integer bytes.toInt).toList
          (.ok bytes.toInt) :=
        readIntegerIn_integer (by omega) (by simp only [signed64]; omega)
      have stored := field_reads reads "unknown_iface_alert_bytes"
        (fun (config : Config) i => { config with unnamedAlertBytes := .ofInt i }) config
      simp only [Except.map, Int64.ofInt_toInt] at stored
      exact stored
  | foregroundOwners owners =>
      refine ⟨_, .tail _ (.tail _ (.head _)), rfl, fun t h config => ?_⟩
      cases h with
      | foregroundOwners h =>
          have reads (owner : UInt32) (t : List Char) (written : Setting.WritesOwner owner t) :
              (readIntegerIn unsigned32).Reads t (.ok owner.toNat) := by
            have upper := owner.toNat_lt
            cases written
            exact readIntegerIn_natural (by rw [maxSignificand]; omega)
              (by simp only [unsigned32]; omega)
          have stored := field_reads (readList_reads reads h) "foreground_owners"
            (fun (config : Config) owners =>
              { config with foregroundOwners := owners.map fun i => .ofNat i.toNat }) config
          simp only [Except.map, map_ofNat_owners] at stored
          exact stored
  | cleanIntervalSecs seconds =>
      refine ⟨_, .tail _ (.tail _ (.tail _ (.head _))), rfl, fun t h config => ?_⟩
      cases h
      have upper := seconds.toNat_lt
      have reads : (readIntegerIn unsigned64).Reads (Text.natural seconds.toNat).toList
          (.ok seconds.toNat) :=
        readIntegerIn_natural (by rw [maxSignificand]; omega) (by simp only [unsigned64]; omega)
      have stored := field_reads reads "clean_interval_secs"
        (fun (config : Config) i => { config with cleanIntervalSecs := .ofNat i.toNat }) config
      simp only [Except.map, Int.toNat_natCast, UInt64.ofNat_toNat] at stored
      exact stored

/-! ### Texts that are read -/

/-- A written configuration is read by putting its settings into the default one. -/
theorem ConfigText.readDocument_eq {settings : List Setting} {t : List Char}
    (written : ConfigText settings t) :
    readDocument (readRecord "struct Config" Config.fields .default) t =
      putAll Setting.name Config.put [] .default settings := by
  cases written with
  | document hb h hr =>
      rw [List.append_assoc]
      exact Json.readDocument_eq
        (readRecord_reads "struct Config" understands_settings h .default) hb hr

/-- What is read from the text of some settings. -/
structure Config.ReadAsWritten (text : String) (settings : List Setting) : Prop where
  -- The configuration that somebody chose is accepted if its numbers make sense.
  accepted : ∀ choice : ConfigChoice, choice.MadeBy settings → ∀ config,
    Config.ofText text = .ok config ↔
      config = choice.config ∧ 0 < config.unnamedAlertBytes ∧ 0 < config.cleanIntervalSecs
  -- All texts for one choice come to the same.
  alike : ∀ choice : ConfigChoice, choice.MadeBy settings → ∀ text' settings',
    ConfigText settings' text'.toList → choice.MadeBy settings' →
      Config.ofText text' = Config.ofText text
  -- A field that is given twice is refused.
  repeated : Setting.Repeats settings → ∃ field,
    Config.ofText text = .error (.unreadable (.mismatch (.repeatedField field)))

theorem ConfigChoice.ofText_eq (choice : ConfigChoice) {text : String} {settings : List Setting}
    (written : ConfigText settings text.toList) (made : choice.MadeBy settings) :
    Config.ofText text = choice.config.validated := by
  rw [Config.ofText, written.readDocument_eq, choice.putAll_eq made]

theorem Config.validated_eq_ok_iff (config config' : Config) :
    config.validated = .ok config' ↔
      config' = config ∧ 0 < config'.unnamedAlertBytes ∧ 0 < config'.cleanIntervalSecs := by
  have positive : 0 < config.cleanIntervalSecs ↔ ¬ config.cleanIntervalSecs = 0 :=
    UInt64.pos_iff_ne_zero
  rw [Config.validated, ← Int64.not_le]
  constructor
  · intro h
    split at h
    · cases h
    · split at h
      · cases h
      · cases h
        exact ⟨rfl, ‹_›, positive.mpr ‹_›⟩
  · rintro ⟨rfl, threshold, interval⟩
    rw [if_neg threshold, if_neg (positive.mp interval)]

/-- A configuration is read as it was written, in whatever order and form, with whatever else
stands in its objects. -/
theorem Config.ofText_written {text : String} {settings : List Setting}
    (written : ConfigText settings text.toList) : Config.ReadAsWritten text settings where
  accepted choice made config := by
    rw [choice.ofText_eq written made]
    exact validated_eq_ok_iff choice.config config
  alike choice made text' settings' written' made' := by
    rw [choice.ofText_eq written made, choice.ofText_eq written' made']
  repeated twice := by
    obtain ⟨field, put⟩ := twice.putAll_eq
    refine ⟨field, ?_⟩
    rw [Config.ofText, written.readDocument_eq, put]

/-- A text with a member that nobody knows, the others in another order, a blank, an escaped
character, and the paths as a list. -/
theorem configText_reordered :
    ConfigText [.cleanIntervalSecs 5, .maps [⟨.detail, "/a"⟩]]
      "\x7b\"note\":null,\"clean_interval_secs\": 5,\"maps\":[\"\\/a\"]\x7d".toList := by
  have path : Quoted "/a" ('"' :: (['\\', '/'] ++ (['a'] ++ [])) ++ ['"']) :=
    .quotes (.cons (.escape (by decide)) (.cons (.plain (by simp [Plain])) .nil))
  have maps : Record PathSetting.name PathSetting.fieldNames PathSetting.Writes
      [⟨.detail, "/a"⟩] _ := .list (.filled (.last blanks_nil path blanks_nil)) (by decide)
  have note : Member Setting.name Setting.fieldNames Setting.Writes none _ :=
    .unknown (by decide) (Quoted.of_plain (s := "note") (by simp [Plain])) blanks_nil blanks_nil
      (.word (.head _))
  have interval : Member Setting.name Setting.fieldNames Setting.Writes
      (some (.cleanIntervalSecs 5)) _ :=
    .known _ (Quoted.of_plain (by simp [Setting.name, Plain])) blanks_nil (n := [' '])
      (by simp [Blanks, blanks]) (.cleanIntervalSecs 5)
  have places : Member Setting.name Setting.fieldNames Setting.Writes
      (some (.maps [⟨.detail, "/a"⟩])) _ :=
    .known _ (Quoted.of_plain (by simp [Setting.name, Plain])) blanks_nil blanks_nil (.maps maps)
  have members := Separated.more blanks_nil note blanks_nil <|
    .more blanks_nil interval blanks_nil (.last blanks_nil places blanks_nil)
  exact .document blanks_nil (.object (.filled members)) blanks_nil

theorem Config.ofText_reordered :
    Config.ofText "\x7b\"note\":null,\"clean_interval_secs\": 5,\"maps\":[\"\\/a\"]\x7d" =
      .ok { Config.default with
        maps := { MapPaths.default with detail := "/a" }, cleanIntervalSecs := 5 } := by
  have given (p : PathChoice) (chosen : p ∈ some (PathChoice.mk (some "/a") none none none)) :
      [PathSetting.mk .detail "/a"].Perm p.settings := by
    cases chosen
    exact .refl _
  have made : (ConfigChoice.mk (some ⟨some "/a", none, none, none⟩) none none (some 5)).MadeBy
      [.cleanIntervalSecs 5, .maps [⟨.detail, "/a"⟩]] := ⟨_, given, .swap _ _ _⟩
  exact ((ofText_written configText_reordered).accepted _ made _).mpr
    ⟨rfl, by decide, by decide⟩

/-! ### Writing a configuration -/

theorem Setting.exists_writes (s : Setting) : ∃ t, s.Writes t := by
  cases s with
  | maps paths =>
      have each (s : PathSetting) (_ : s ∈ paths) : ∃ t, s.Writes t := exists_quoted s.path
      obtain ⟨t, written⟩ := exists_record PathSetting.name PathSetting.fieldNames each
      exact ⟨t, .maps written⟩
  | unnamedAlertBytes bytes => exact ⟨_, .unnamedAlertBytes bytes⟩
  | foregroundOwners owners =>
      have each (owner : UInt32) (_ : owner ∈ owners) : ∃ t, WritesOwner owner t := ⟨_, rfl⟩
      obtain ⟨t, written⟩ := exists_enclosed '[' ']' each
      exact ⟨t, .foregroundOwners written⟩
  | cleanIntervalSecs seconds => exact ⟨_, .cleanIntervalSecs seconds⟩

/-- Every choice can be written. -/
theorem ConfigChoice.exists_text (c : ConfigChoice) :
    ∃ (text : String) (settings : List Setting),
      ConfigText settings text.toList ∧ c.MadeBy settings := by
  obtain ⟨paths, given⟩ : ∃ paths : List PathSetting, ∀ p ∈ c.maps, paths.Perm p.settings := by
    cases c.maps with
    | none => exact ⟨[], nofun⟩
    | some p => exact ⟨p.settings, fun p' chosen => by cases chosen; exact .refl _⟩
  obtain ⟨t, record⟩ := exists_record Setting.name Setting.fieldNames
    fun s (_ : s ∈ c.settings paths) => s.exists_writes
  have written : ConfigText (c.settings paths) ([] ++ t ++ []) :=
    .document blanks_nil record blanks_nil
  refine ⟨String.ofList ([] ++ t ++ []), c.settings paths, ?_, paths, given, .refl _⟩
  rwa [String.toList_ofList]

/-- Every configuration that makes sense is read from some text. -/
theorem Config.exists_text (config : Config) (threshold : 0 < config.unnamedAlertBytes)
    (interval : 0 < config.cleanIntervalSecs) : ∃ text, Config.ofText text = .ok config := by
  let choice : ConfigChoice :=
    ⟨some ⟨some config.maps.detail, some config.maps.device, some config.maps.ifaceNames,
        some config.maps.cookieTags⟩, some config.unnamedAlertBytes,
      some config.foregroundOwners, some config.cleanIntervalSecs⟩
  obtain ⟨text, settings, written, made⟩ := choice.exists_text
  refine ⟨text, ?_⟩
  rw [choice.ofText_eq written made]
  exact (validated_eq_ok_iff choice.config config).mpr ⟨rfl, threshold, interval⟩

end TrafficStats

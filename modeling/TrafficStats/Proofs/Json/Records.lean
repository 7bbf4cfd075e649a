import Mathlib.Data.List.Nodup
import Mathlib.Data.List.ReduceOption
import TrafficStats.Proofs.Json.Decoders

/-!
# Reading records

A record is read from an object with its members in any order, joined by any others, or from a
list of its first fields. Both come to the same: what is said about the fields is put into the
record one after the other (`readRecord_reads`), and a field that is given twice is refused.
-/

namespace TrafficStats.Json

variable {σ S : Type} {fields : List (Field σ)} {name : S → String}
variable {Writes : S → List Char → Prop} {put : σ → S → Except Fault σ}
variable {b key l m n r t x rest pre : List Char} {first : Bool} {s : S} {settings : List S}

/-! ### What a record says -/

/-- Every setting is about a field of the record, which reads it and puts it into the record. -/
structure Understands (fields : List (Field σ)) (name : S → String)
    (Writes : S → List Char → Prop) (put : σ → S → Except Fault σ) : Prop where
  distinct : (fields.map Field.name).Nodup
  reads : ∀ s, ∃ f ∈ fields, f.name = name s ∧ ∀ t, Writes s t → ∀ record,
    Decoder.Reads (f.read record) t (put record s)

theorem Understands.reads_of_name (h : Understands fields name Writes put) {f : Field σ}
    (mem : f ∈ fields) (same : f.name = name s) (written : Writes s t) (record : σ) :
    Decoder.Reads (f.read record) t (put record s) := by
  obtain ⟨g, mem', same', reads⟩ := h.reads s
  obtain rfl := List.inj_on_of_nodup_map h.distinct mem mem' (same.trans same'.symm)
  exact reads t written record

theorem field_reads {α : Type} {decoder : Decoder α} {outcome : Except Fault α}
    (h : decoder.Reads t outcome) (name : String) (put : σ → α → σ) (record : σ) :
    Decoder.Reads ((Field.of name decoder put).read record) t (outcome.map (put record)) := by
  refine ⟨h.starts, fun b rest hb stops => ?_⟩
  simp only [Field.of, h.reads b rest hb stops]
  cases outcome <;> rfl

/-- Puts settings into a record one after the other, none about a field that was given. -/
def putAll (name : S → String) (put : σ → S → Except Fault σ) :
    List String → σ → List S → Except Fault σ
  | _, record, [] => .ok record
  | given, record, s :: settings =>
    if name s ∈ given then .error (.mismatch (.repeatedField (name s)))
    else put record s >>= fun record => putAll name put (name s :: given) record settings

/-- Settings about different fields are put into the record as they are. -/
theorem putAll_eq_foldlM {given : List String} (record : σ)
    (new : ∀ s ∈ settings, name s ∉ given) (nodup : (settings.map name).Nodup) :
    putAll name put given record settings = settings.foldlM put record := by
  induction settings generalizing given record with
  | nil => rfl
  | cons s settings ih =>
      obtain ⟨single, nodup⟩ := List.nodup_cons.mp nodup
      rw [putAll, if_neg (new s List.mem_cons_self), List.foldlM_cons]
      refine congrArg (put record s >>= ·) (funext fun record' => ih record' ?_ nodup)
      intro s' mem
      rw [List.mem_cons, not_or]
      refine ⟨fun same => single ?_, new s' (List.mem_cons_of_mem s mem)⟩
      rw [← same]
      exact List.mem_map_of_mem mem

theorem foldlM_eq_ok {set : σ → S → σ}
    (puts : ∀ s ∈ settings, ∀ record, put record s = .ok (set record s)) (record : σ) :
    settings.foldlM put record = .ok (settings.foldl set record) := by
  induction settings generalizing record with
  | nil => rfl
  | cons s settings ih =>
      rw [List.foldlM_cons, puts s List.mem_cons_self]
      exact ih (fun s' mem => puts s' (List.mem_cons_of_mem s mem)) (set record s)

/-- Settings about different fields may change a record in any order, if each of them leaves the
fields of the others alone. -/
theorem foldl_eq_of_perm {set : σ → S → σ} {chosen : List S} (perm : settings.Perm chosen)
    (nodup : (chosen.map name).Nodup)
    (comm : ∀ s s' record, name s ≠ name s' → set (set record s) s' = set (set record s') s)
    (record : σ) : settings.foldl set record = chosen.foldl set record := by
  refine perm.foldl_eq' (fun s mem s' mem' record => ?_) record
  by_cases same : name s = name s'
  · rw [List.inj_on_of_nodup_map nodup (perm.mem_iff.mp mem) (perm.mem_iff.mp mem') same]
  · exact comm s s' record same

theorem putAll_of_perm {set : σ → S → σ} {chosen : List S} (perm : settings.Perm chosen)
    (nodup : (chosen.map name).Nodup)
    (comm : ∀ s s' record, name s ≠ name s' → set (set record s) s' = set (set record s') s)
    (puts : ∀ s ∈ chosen, ∀ record, put record s = .ok (set record s)) (record : σ) :
    putAll name put [] record settings = .ok (chosen.foldl set record) := by
  have distinct : (settings.map name).Nodup := (perm.map name).nodup_iff.mpr nodup
  rw [putAll_eq_foldlM record (fun _ _ => List.not_mem_nil) distinct,
    ← foldl_eq_of_perm perm nodup comm]
  exact foldlM_eq_ok (fun s mem => puts s (perm.mem_iff.mp mem)) record

/-- Settings that can be put into a record are about different fields that were not given. -/
theorem of_putAll_eq_ok {given : List String} {record record' : σ}
    (h : putAll name put given record settings = .ok record') :
    (∀ s ∈ settings, name s ∉ given) ∧ (settings.map name).Nodup ∧
      ∀ s ∈ settings, ∃ before after, put before s = .ok after := by
  induction settings generalizing given record with
  | nil => exact ⟨nofun, List.nodup_nil, nofun⟩
  | cons s settings ih =>
      rw [putAll] at h
      split at h
      · cases h
      · rename_i new
        cases first : put record s with
        | error e =>
            rw [first] at h
            cases h
        | ok after =>
            rw [first] at h
            obtain ⟨others, nodup, ok⟩ := ih h
            refine ⟨?_, List.nodup_cons.mpr ⟨fun mem => ?_, nodup⟩, ?_⟩
            · intro s' mem
              cases mem with
              | head => exact new
              | tail _ mem => exact fun mem' => others s' mem (List.mem_cons_of_mem _ mem')
            · obtain ⟨s', mem, same⟩ := List.mem_map.mp mem
              exact others s' mem (same ▸ List.mem_cons_self)
            · intro s' mem
              cases mem with
              | head => exact ⟨record, after, first⟩
              | tail _ mem => exact ok s' mem

def IsRepetition (fault : Fault) : Prop := ∃ field, fault = .mismatch (.repeatedField field)

/-- If values can be put into a record but for repetitions, so can all settings. -/
theorem putAll_cases (puts : ∀ record s fault, put record s = .error fault → IsRepetition fault)
    {given : List String} {record : σ} {fault : Fault}
    (h : putAll name put given record settings = .error fault) : IsRepetition fault := by
  induction settings generalizing given record with
  | nil => cases h
  | cons s settings ih =>
      rw [putAll] at h
      split at h
      · cases h
        exact ⟨name s, rfl⟩
      · cases first : put record s with
        | error e =>
            rw [first] at h
            cases h
            exact puts record s fault first
        | ok after =>
            rw [first] at h
            exact ih h

/-! ### Objects -/

variable {field : String} {given : List String} {budget : Nat} {record : σ}

theorem Quoted.readKey_eq (h : Quoted field key) (x : List Char) :
    ∃ u, key ++ x = '"' :: u ∧ readKey u = .ok (.key field.toList x) := by
  cases h with
  | @quotes t h =>
      refine ⟨t ++ '"' :: x, by simp, ?_⟩
      rw [readKey, readString_quoted h]
      rfl

/-- The next member of an object is found, however its key is spelled. -/
theorem nextMember_append (opens : Opens first pre) (hl : Blanks l) (hkey : Quoted field key)
    (x : List Char) : nextMember first (pre ++ (l ++ (key ++ x))) = .ok (.key field.toList x) := by
  obtain ⟨u, eq, read⟩ := hkey.readKey_eq x
  rw [eq]
  obtain ⟨rfl, rfl⟩ | ⟨rfl, r, hr, rfl⟩ := opens
  · rw [List.nil_append, nextMember, skipBlanks_append hl, skipBlanks_cons (by decide)]
    exact read
  · rw [nextMember, List.append_assoc, skipBlanks_append hr, List.singleton_append,
      skipBlanks_cons (by decide)]
    simp [skipBlanks_append hl, skipBlanks_cons (show '"' ∉ blanks by decide), read]

theorem nextMember_close (first : Bool) (hr : Blanks r) (rest : List Char) :
    nextMember first (r ++ '\x7d' :: rest) = .ok (.finished rest) := by
  rw [nextMember, skipBlanks_append hr, skipBlanks_cons (by decide)]
  rfl

/-- A member of another name is passed over. -/
theorem readMembers_unknown (opens : Opens first pre) (hl : Blanks l)
    (new : field ∉ fields.map Field.name) (hkey : Quoted field key) (hm : Blanks m)
    (hn : Blanks n) (h : WellFormed .value t) (stops : Stops x) :
    readMembers fields (budget + 1) first given record
        (pre ++ (l ++ (key ++ (m ++ ':' :: (n ++ (t ++ x)))))) =
      readMembers fields budget false given record x := by
  have absent : fields.find? (fun f => f.name = String.ofList field.toList) = none := by
    rw [List.find?_eq_none, String.ofList_toList]
    intro f mem same
    exact new (List.mem_map.mpr ⟨f, mem, of_decide_eq_true same⟩)
  rw [readMembers, nextMember_append opens hl hkey]
  simp only [bind, Except.bind, absent, readColon_append hm, skipValue_append h hn stops]

/-- A member about a known field is put into the record, unless it is about a field that was
given before. -/
theorem readMembers_known (understands : Understands fields name Writes put)
    (opens : Opens first pre) (hl : Blanks l) (hkey : Quoted (name s) key) (hm : Blanks m)
    (hn : Blanks n) (h : Writes s t) (stops : Stops x) :
    readMembers fields (budget + 1) first given record
        (pre ++ (l ++ (key ++ (m ++ ':' :: (n ++ (t ++ x)))))) =
      if name s ∈ given then .error (.mismatch (.repeatedField (name s)))
      else put record s >>= fun record =>
        readMembers fields budget false (name s :: given) record x := by
  obtain ⟨f, mem, same, -⟩ := understands.reads s
  obtain ⟨f, found⟩ :
      ∃ f, fields.find? (fun f => f.name = String.ofList (name s).toList) = some f :=
    Option.isSome_iff_exists.mp (List.find?_isSome.mpr ⟨f, mem, by simpa using same⟩)
  have same : f.name = name s := by simpa using List.find?_some found
  have read := (understands.reads_of_name (List.mem_of_find?_eq_some found) same h record).reads n x
    hn stops
  rw [readMembers, nextMember_append opens hl hkey]
  simp only [bind, Except.bind, found, same, readColon_append hm, read]
  split
  · rfl
  · cases put record s <;> rfl

theorem readMembers_close (first : Bool) (hr : Blanks r)
    (enough : (r ++ '\x7d' :: rest).length ≤ budget) :
    readMembers fields budget first given record (r ++ '\x7d' :: rest) = .ok (record, rest) := by
  cases budget with
  | zero => simp at enough
  | succ budget =>
      rw [readMembers, nextMember_close first hr]
      rfl

/-- One member of an object: what it says is put into the record, and reading goes on. -/
theorem readMembers_cons (understands : Understands fields name Writes put) {member : Option S}
    (h : Member name (fields.map Field.name) Writes member t) (opens : Opens first pre)
    (hl : Blanks l) (stops : Stops x) {members : List (Option S)}
    (onward : ∀ given record, readMembers fields budget false given record x =
      (putAll name put given record members.reduceOption).map fun record => (record, rest)) :
    readMembers fields (budget + 1) first given record (pre ++ (l ++ (t ++ x))) =
      (putAll name put given record (member :: members).reduceOption).map
        fun record => (record, rest) := by
  cases h with
  | known s hkey hm hn h =>
      simp only [List.append_assoc, List.cons_append]
      rw [readMembers_known understands opens hl hkey hm hn h stops, List.reduceOption_cons_of_some,
        putAll]
      split
      · rfl
      · cases put record s with
        | error e => rfl
        | ok record => exact onward _ record
  | unknown new hkey hm hn h =>
      simp only [List.append_assoc, List.cons_append]
      rw [readMembers_unknown opens hl new hkey hm hn h stops, List.reduceOption_cons_of_none]
      exact onward given record

theorem Member.length_pos {member : Option S} {known : List String}
    (h : Member name known Writes member t) : 0 < t.length := by
  cases h
  all_goals
    simp only [List.length_append, List.length_cons]
    omega

/-- The members of an object come to what they say about the record. -/
theorem readMembers_append (understands : Understands fields name Writes put)
    {members : List (Option S)}
    (h : Separated (Member name (fields.map Field.name) Writes) members t)
    (opens : Opens first pre) (enough : (pre ++ (t ++ '\x7d' :: rest)).length ≤ budget) :
    readMembers fields budget first given record (pre ++ (t ++ '\x7d' :: rest)) =
      (putAll name put given record members.reduceOption).map fun record => (record, rest) := by
  induction h generalizing first pre budget given record with
  | @last member l t r hl h hr =>
      have stops : Stops (r ++ '\x7d' :: rest) := stops_append hr (stops_cons (by decide))
      simp only [List.append_assoc] at enough ⊢
      obtain ⟨budget, rfl, left⟩ := exists_budget h.length_pos enough
      exact readMembers_cons understands h opens hl stops fun _ _ => readMembers_close false hr left
  | @more member members l t r ts hl h hr _ ih =>
      have stops : Stops (r ++ ',' :: (ts ++ '\x7d' :: rest)) :=
        stops_append hr (stops_cons (by decide))
      simp only [List.append_assoc, List.cons_append] at enough ⊢
      obtain ⟨budget, rfl, left⟩ := exists_budget h.length_pos enough
      refine readMembers_cons understands h opens hl stops fun given record => ?_
      rw [List.append_cons r] at left ⊢
      exact ih (opens_comma hr) left

/-! ### Lists of fields -/

theorem readInOrder_close (first : Bool) (hr : Blanks r) :
    readInOrder fields first record (r ++ ']' :: rest) = .ok (record, r ++ ']' :: rest) := by
  cases fields with
  | nil => rfl
  | cons f fields =>
      rw [readInOrder, nextItem_close first hr]
      rfl

theorem readInOrder_cons {f : Field σ} (reads : Decoder.Reads (f.read record) t (put record s))
    (opens : Opens first pre) (hl : Blanks l) (stops : Stops x) :
    readInOrder (f :: fields) first record (pre ++ (l ++ (t ++ x))) =
      put record s >>= fun record => readInOrder fields false record x := by
  have read := reads.at_start stops
  rw [readInOrder, nextItem_append opens hl reads.starts]
  simp only [bind, Except.bind, read]
  cases put record s <;> rfl

theorem exists_cons_of_prefix (inOrder : (s :: settings).map name <+: fields.map Field.name) :
    ∃ f later, fields = f :: later ∧ f.name = name s ∧
      settings.map name <+: later.map Field.name := by
  cases fields with
  | nil => exact absurd (List.prefix_nil.mp inOrder) nofun
  | cons f later =>
      obtain ⟨same, inOrder⟩ := List.cons_prefix_cons.mp inOrder
      exact ⟨f, later, rfl, same.symm, inOrder⟩

/-- A list of the first fields comes to what they say about the record. -/
theorem readInOrder_append
    (reads : ∀ f ∈ fields, ∀ s, f.name = name s → ∀ t, Writes s t → ∀ record,
      Decoder.Reads (f.read record) t (put record s))
    (h : Separated Writes settings t) (inOrder : settings.map name <+: fields.map Field.name)
    (opens : Opens first pre) :
    ∃ r, Blanks r ∧ ∀ record, readInOrder fields first record (pre ++ (t ++ ']' :: rest)) =
      (settings.foldlM put record).map fun record => (record, r ++ ']' :: rest) := by
  induction h generalizing fields first pre with
  | @last s l t r hl h hr =>
      have stops : Stops (r ++ ']' :: rest) := stops_append hr (stops_cons (by decide))
      obtain ⟨f, later, rfl, same, -⟩ := exists_cons_of_prefix inOrder
      refine ⟨r, hr, fun record => ?_⟩
      simp only [List.append_assoc]
      rw [readInOrder_cons (reads f List.mem_cons_self s same t h record) opens hl stops,
        List.foldlM_cons]
      cases put record s with
      | error e => rfl
      | ok record => exact readInOrder_close false hr
  | @more s settings l t r ts hl h hr _ ih =>
      have stops : Stops (r ++ ',' :: (ts ++ ']' :: rest)) :=
        stops_append hr (stops_cons (by decide))
      obtain ⟨f, later, rfl, same, inOrder⟩ := exists_cons_of_prefix inOrder
      obtain ⟨r', hr', onward⟩ :=
        ih (fun f mem => reads f (List.mem_cons_of_mem _ mem)) inOrder (opens_comma hr)
      refine ⟨r', hr', fun record => ?_⟩
      simp only [List.append_assoc, List.cons_append]
      rw [readInOrder_cons (reads f List.mem_cons_self s same t h record) opens hl stops,
        List.foldlM_cons, List.append_cons r]
      cases put record s with
      | error e => rfl
      | ok record => exact onward record

/-! ### Records -/

/-- A record that is written as an object is read as its members are. -/
theorem readRecord_object (wanted : String) {defaults : σ} {outcome : Except Fault σ}
    (h : ∀ rest, readMembers fields (t ++ '\x7d' :: rest).length true [] defaults
      (t ++ '\x7d' :: rest) = outcome.map fun record => (record, rest)) :
    (readRecord wanted fields defaults).Reads ('\x7b' :: t ++ ['\x7d']) outcome := by
  refine ⟨⟨_, _, rfl, by decide, by decide⟩, fun b rest hb _ => ?_⟩
  simp only [readRecord, List.cons_append, List.append_assoc, List.nil_append,
    skipBlanks_append hb, skipBlanks_cons (show '\x7b' ∉ blanks by decide)]
  exact h rest

/-- A record that is written as a list is read as its items are. -/
theorem readRecord_list (wanted : String) {defaults : σ} {outcome : Except Fault σ}
    (h : ∀ rest, ∃ r, Blanks r ∧ readInOrder fields true defaults (t ++ ']' :: rest) =
      outcome.map fun record => (record, r ++ ']' :: rest)) :
    (readRecord wanted fields defaults).Reads ('[' :: t ++ [']']) outcome := by
  refine ⟨⟨_, _, rfl, by decide, by decide⟩, fun b rest hb _ => ?_⟩
  obtain ⟨r, hr, read⟩ := h rest
  simp only [readRecord, List.cons_append, List.append_assoc, List.nil_append,
    skipBlanks_append hb, skipBlanks_cons (show '[' ∉ blanks by decide), read]
  cases outcome with
  | error e => rfl
  | ok record =>
      simp only [Except.map, bind, Except.bind, endList_append hr]
      rfl

/-- A record is read from any of its texts, whichever form it has. -/
theorem readRecord_reads (wanted : String) (understands : Understands fields name Writes put)
    (h : Record name (fields.map Field.name) Writes settings t) (defaults : σ) :
    (readRecord wanted fields defaults).Reads t (putAll name put [] defaults settings) := by
  cases h with
  | object h =>
      cases h with
      | empty hb =>
          exact readRecord_object wanted fun rest => readMembers_close true hb (Nat.le_refl _)
      | filled h =>
          exact readRecord_object wanted fun rest =>
            readMembers_append understands h opens_first (Nat.le_refl _)
  | list h inOrder =>
      have nodup : (settings.map name).Nodup := understands.distinct.sublist inOrder.sublist
      rw [putAll_eq_foldlM defaults (fun _ _ => List.not_mem_nil) nodup]
      cases h with
      | empty hb => exact readRecord_list wanted fun rest => ⟨_, hb, readInOrder_close true hb⟩
      | filled h =>
          refine readRecord_list wanted fun rest => ?_
          obtain ⟨r, hr, read⟩ := readInOrder_append
            (fun f mem s same t h record => understands.reads_of_name mem same h record) h inOrder
            opens_first
          exact ⟨r, hr, read defaults⟩

/-- A document is one value with blanks around it. -/
theorem readDocument_eq {α : Type} {decoder : Decoder α} {outcome : Except Fault α}
    (h : decoder.Reads t outcome) (hb : Blanks b) (hr : Blanks r) :
    readDocument decoder (b ++ (t ++ r)) = outcome := by
  have read := h.reads b r hb (stops_blanks hr)
  rw [readDocument, read]
  cases outcome with
  | error e => rfl
  | ok value =>
      simp only [Except.map, bind, Except.bind, skipBlanks_eq_nil hr]
      rfl

end TrafficStats.Json

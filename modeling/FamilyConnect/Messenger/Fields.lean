import FamilyConnect.Lib.Text

/-!
# Message fields

Source: `parse_fields`, `fields_for` and `radio_duration` of `messenger/codec.py`, `validate_notice`
of `messenger/notices.py`. What the source raises is `none`. `opus_duration` is any function of the bytes.
-/

namespace FamilyConnect.Messenger.Fields

open Lib.Text (strip b64encode b64decode b64decode_b64encode)

/-- A key up to `==`: True, 1 and 1.0 are one key. -/
inductive Key where
  | number (n : Rat)
  | text (s : String)
  | bytes (b : List UInt8)
  | other (n : Nat)
  deriving DecidableEq

/-- What msgpack gives. -/
inductive Value where
  | nothing
  | bool (b : Bool)
  | int (n : Int)
  | float (bits : UInt64)
  | text (s : String)
  | bytes (b : List UInt8)
  | list (items : List Value)
  | dict (entries : List (Key × Value))
  | other (n : Nat)

abbrev Dict := List (Key × Value)

/-- `==`, but for lists: they have to be the same. -/
inductive Value.Equal : Value → Value → Prop where
  | same (v : Value) : Equal v v
  | dict {d d' : Dict} : (∀ k, Option.Rel Equal (d.lookup k) (d'.lookup k)) → Equal (.dict d) (.dict d')

/-- `set(d) == {...}` -/
def hasKeys (d : Dict) (ks : List Key) : Bool :=
  d.all (fun e => decide (e.1 ∈ ks)) && ks.all fun k => (d.lookup k).isSome

def text (d : Dict) (key : String) : Option String :=
  match d.lookup (.text key) with
  | some (.text s) => some s
  | _ => none

def int (d : Dict) (key : String) : Option Int :=
  match d.lookup (.text key) with
  | some (.int n) => some n
  | _ => none

/-- The constants of LXMF, and `opus_duration`. -/
structure Library where
  customData : Int
  audio : Int
  opusOgg : Int
  codec2 : Int × Int × Int
  opusDuration : List UInt8 → Option Nat

/-- A string of `n` lowercase digits, the only one that `fromhex` and `hex` give back. -/
def hex (n : Nat) (s : String) : Bool := decide (s.length = n) && s.toList.all fun c => c.isDigit ||
    decide ('a' ≤ c ∧ c ≤ 'f')

variable (lib : Library)

def radioDuration (raw : List UInt8) (mode : Int) : Option Nat :=
  let frames : Option (Nat × Nat) :=
    if mode = lib.codec2.1 then some (8, 40) else if mode = lib.codec2.2.1 then some (6, 20)
    else if mode = lib.codec2.2.2 then some (8, 20) else none
  frames.bind fun (size, millis) =>
    if raw = [] ∨ raw.length % size ≠ 0 ∨ 60000 < raw.length / size * millis then none
      else some (raw.length / size * millis)

def validText (d : Dict) (name : String) (limit : Nat) : Bool :=
  match text d name with
  | some value => decide (strip value.toList ≠ []) && decide (value.utf8ByteSize ≤ limit) &&
      value.toList.all fun c => decide (32 ≤ c.toNat) || c == '\n' || c == '\t'
  | none => false

def inRange (d : Dict) (key : String) (low high : Int) : Bool := (int d key).any fun n => decide (low ≤ n ∧ n ≤ high)

def validNotice (d : Dict) : Bool :=
  hasKeys d (["event_id", "revision", "kind", "title", "body", "created", "expires", "platforms", "min_version", "max_version"].map .text) &&
  (text d "event_id").any (hex 32) && inRange d "revision" 1 1000000 &&
  (text d "kind").any (· ∈ ["update", "maintenance", "server_change", "information"]) &&
  validText d "title" 160 && validText d "body" 4000 &&
  (match int d "created", int d "expires" with
    | some created, some expires => decide (0 < created ∧ created < expires ∧ expires ≤ created + 30 * 86400)
    | _, _ => false) &&
  (match d.lookup (.text "platforms") with
    | some (.list platforms) =>
      let names := platforms.filterMap fun | .text s => some s | _ => none
      decide (platforms ≠ [] ∧ platforms.length ≤ 3 ∧ names.length = platforms.length ∧ names.Nodup) &&
        names.all (· ∈ ["android", "windows", "linux"])
    | _ => false) &&
  inRange d "min_version" 0 2147483647 && inRange d "max_version" 0 2147483647 &&
  (match int d "min_version", int d "max_version" with
    | some low, some high => decide (low ≤ high)
    | _, _ => false)

def validateNotice : Value → Option Dict
  | .dict d => if validNotice d then some d else none
  | _ => none

/-- The message that the fields stand for. -/
inductive Parsed where
  | text
  | service (event : Dict)
  | stored (target : String)
  | edit (target : String) (revision : Int)
  | audio (audio : String) (duration : Nat) (mode : Option Int)

def parseOperation (edit : Dict) (content : String) : Option Parsed :=
  let names : List String → List Key := List.map .text
  if text edit "type" = some "service" ∨ text edit "type" = some "stored" then
    if int edit "fc" ≠ some 1 ∨ content ≠ "" then none
    else if text edit "type" = some "service" then
      if hasKeys edit (names ["fc", "type", "event"]) then
        ((edit.lookup (.text "event")).bind validateNotice).map .service
      else none
    else
      match text edit "target" with
      | some target =>
        if hasKeys edit (names ["fc", "type", "target"]) ∧
          hex 64 target then some (.stored target) else none
      | none => none
  else if hasKeys edit (names ["fc", "type", "target", "revision"]) ∧ int edit "fc" = some 1 ∧
    text edit "type" = some "edit" then
    match text edit "target", int edit "revision" with
    | some target, some revision =>
      if hex 64 target ∧ 1 ≤ revision ∧ revision ≤ 1000000 ∧ content ≠ "" then some (.edit target revision) else none
    | _, _ => none
  else none

def parseAudio (mode : Int) (raw : List UInt8) : Option Parsed :=
  (if mode = lib.opusOgg then lib.opusDuration raw else radioDuration lib raw mode).map fun duration =>
    .audio (b64encode raw) duration (if mode = lib.opusOgg then none else some mode)

def parseFields (fields : Dict) (content : String) : Option Parsed :=
  if fields = [] then some .text
  else if hasKeys fields [.number lib.customData] then
    match fields.lookup (.number lib.customData) with
    | some (.dict edit) => parseOperation edit content
    | _ => none
  else if hasKeys fields [.number lib.audio] then
    match fields.lookup (.number lib.audio) with
    | some (.list [.int mode, .bytes raw]) => if content ≠ "" then none else parseAudio lib mode raw
    | _ => none
  else none

def operation (kind : String) (rest : Dict) : Dict :=
  [(.number lib.customData, .dict ((.text "fc", .int 1) :: (.text "type", .text kind) :: rest))]

def fieldsFor : Parsed → Option Dict
  | .service event => some (operation lib "service" [(.text "event", .dict event)])
  | .stored target => some (operation lib "stored" [(.text "target", .text target)])
  | .edit target revision => some (operation lib "edit"
      [(.text "target", .text target), (.text "revision", .int revision)])
  | .audio audio _ mode => (b64decode audio).map fun raw =>
      [(.number lib.audio, .list [.int (mode.getD lib.opusOgg), .bytes raw])]
  | .text => some []

/-! ## The round trip -/

variable {lib} {d d' : Dict} {ks : List Key} {content : String} {parsed : Parsed}

@[simp] theorem Key.text_beq (s s' : String) : (Key.text s == Key.text s') = (s == s') := by
  rw [Bool.eq_iff_iff, beq_iff_eq, beq_iff_eq, Key.text.injEq]

theorem lookup_of_not_mem {k : Key} (h : hasKeys d ks = true) (hK : k ∉ ks) : d.lookup k = none := by
  obtain ⟨hAll, -⟩ := Bool.and_eq_true_iff.mp h
  refine List.lookup_eq_none_iff.mpr fun e hE => bne_iff_ne.mpr ?_
  rintro rfl
  exact hK (of_decide_eq_true (List.all_eq_true.mp hAll e hE))

theorem equal_of_keys (h : hasKeys d ks = true) (h' : hasKeys d' ks = true)
    (hEach : ∀ k ∈ ks, Option.Rel Value.Equal (d.lookup k) (d'.lookup k)) : Value.Equal (.dict d) (.dict d') := by
  refine .dict fun k => ?_
  by_cases hK : k ∈ ks
  · exact hEach k hK
  · rw [lookup_of_not_mem h hK, lookup_of_not_mem h' hK]
    exact .none

theorem text_eq {key s : String} : text d key = some s ↔ d.lookup (.text key) = some (.text s) := by
  unfold text
  split <;> simp_all

theorem int_eq {key : String} {n : Int} : int d key = some n ↔ d.lookup (.text key) = some (.int n) := by
  unfold int
  split <;> simp_all

theorem validateNotice_eq {event : Value} (h : validateNotice event = some d) : event = .dict d := by
  cases event with
  | dict e =>
    simp only [validateNotice] at h
    split at h <;> cases h
    rfl
  | _ => cases h

theorem single_equal {key : Key} {v v' : Value} (h : hasKeys d [key] = true)
    (hV : d.lookup key = some v) (hEqual : v'.Equal v) :
    Value.Equal (.dict [(key, v')]) (.dict d) := by
  refine equal_of_keys (by simp [hasKeys]) h fun k hK => ?_
  rw [List.mem_singleton.mp hK, hV, List.lookup_cons_self]
  exact .some hEqual

theorem same_equal (h : hasKeys d ks = true) (h' : hasKeys d' ks = true) (hEach : ∀ k ∈ ks, d.lookup k = d'.lookup k) :
    Value.Equal (.dict d) (.dict d') := by
  refine equal_of_keys h h' fun k hK => ?_
  rw [hEach k hK]
  cases d'.lookup k with
  | none => exact .none
  | some v => exact .some (.same v)

theorem parseOperation_equal {edit : Dict} (h : parseOperation edit content = some parsed) :
    ∃ kind rest, fieldsFor lib parsed = some (operation lib kind rest) ∧
      Value.Equal (.dict ((.text "fc", .int 1) :: (.text "type", .text kind) :: rest)) (.dict edit) := by
  unfold parseOperation at h
  dsimp only at h
  split at h
  · split at h
    · cases h
    rename_i hKind hHead
    rw [not_or, not_not, not_not, int_eq] at hHead
    split at h
    · rename_i hType
      split at h
      · rename_i hKeys
        obtain ⟨event, hEvent, rfl⟩ := Option.map_eq_some_iff.mp h
        obtain ⟨v, hV, hValid⟩ := Option.bind_eq_some_iff.mp hEvent
        rw [validateNotice_eq hValid] at hV
        refine ⟨_, _, rfl, same_equal (by simp [hasKeys, List.lookup]) hKeys ?_⟩
        simp [List.lookup, hHead.1, text_eq.mp hType, hV]
      · cases h
    · rename_i hType
      have hStored := hKind.resolve_left hType
      split at h
      · rename_i target hTarget
        split at h <;> cases h
        rename_i hKeys
        refine ⟨_, _, rfl, same_equal (by simp [hasKeys, List.lookup]) hKeys.1 ?_⟩
        simp [List.lookup, hHead.1, text_eq.mp hStored, text_eq.mp hTarget]
      · cases h
  · split at h
    · rename_i hHead
      obtain ⟨hKeys, hFc, hType⟩ := hHead
      split at h
      · rename_i target revision hTarget hRevision
        split at h <;> cases h
        refine ⟨_, _, rfl, same_equal (by simp [hasKeys, List.lookup]) hKeys ?_⟩
        simp [List.lookup, int_eq.mp hFc, text_eq.mp hType, text_eq.mp hTarget, int_eq.mp hRevision]
      · cases h
    · cases h

theorem parseAudio_fields {mode : Int} {raw : List UInt8} (h : parseAudio lib mode raw = some parsed) :
    fieldsFor lib parsed = some [(.number lib.audio, .list [.int mode, .bytes raw])] := by
  obtain ⟨duration, -, rfl⟩ := Option.map_eq_some_iff.mp h
  simp only [fieldsFor, b64decode_b64encode, Option.map_some]
  split
  · rename_i hOpus
    rw [hOpus]
    rfl
  · rfl

/-- The fields of a parsed message are those that it was parsed from. -/
theorem fields_survive {fields : Dict} (h : parseFields lib fields content = some parsed) :
    ∃ again, fieldsFor lib parsed = some again ∧ Value.Equal (.dict again) (.dict fields) := by
  unfold parseFields at h
  split at h
  · rename_i hEmpty
    cases h
    exact ⟨[], rfl, hEmpty ▸ .same _⟩
  split at h
  · rename_i hKeys
    split at h
    · rename_i edit hEdit
      obtain ⟨kind, rest, hFields, hEqual⟩ := parseOperation_equal h
      exact ⟨_, hFields, single_equal hKeys hEdit hEqual⟩
    · cases h
  split at h
  · rename_i hKeys
    split at h
    · rename_i mode raw hAudio
      split at h
      · cases h
      · exact ⟨_, parseAudio_fields h, single_equal hKeys hAudio (.same _)⟩
    · cases h
  · cases h

def lxmf : Library where
  customData := 252
  audio := 7
  opusOgg := 16
  codec2 := (7, 8, 9)
  opusDuration _ := none

theorem fields_survive_codec2 : ∃ again, fieldsFor lxmf (.audio "AQIDBAUG" 20 (some 8)) = some again ∧
    Value.Equal (.dict again) (.dict [(.number 7, .list [.int 8, .bytes [1, 2, 3, 4, 5, 6]])]) :=
  @fields_survive lxmf "" _ _ rfl

end FamilyConnect.Messenger.Fields

import Mathlib.Data.List.TakeWhile
import Mathlib.Data.Set.Function
import LineLedger.Interchange
import LineLedger.Proofs.Json.Read
import LineLedger.Proofs.Table

set_option autoImplicit false

namespace LineLedger

namespace Json

section Values

theorem plain_ofText (text : String) : Plain (ofText text) := .string text.toList

theorem plain_ofNat (n : Nat) : Plain (ofNat n) := .number n

theorem plain_ofOption {α : Type} {encode : α → Json} (plain : ∀ a, Plain (encode a))
    (o : Option α) : Plain (ofOption encode o) := by
  cases o with
  | none => exact .null
  | some a => exact plain a

theorem plain_ofMembers {members : List (String × Json)}
    (all : ∀ member ∈ members, Plain member.2) : Plain (ofMembers members) := by
  have written : ofMembers members =
      .object ((members.map fun member => (member.1.toList, member.2)).map escapeKey) := by
    simp [ofMembers, escapeKey, Function.comp_def]
  rw [written]
  refine .object _ fun member listed => ?_
  obtain ⟨named, present, rfl⟩ := List.mem_map.1 listed
  exact all named present

theorem unescape_map_escape (text : String) :
    (unescape (escape text.toList)).map String.ofList = some text := by
  rw [unescape_escape, Option.map_some, String.ofList_toList]

theorem text?_ofText (text : String) : text? (ofText text) = some text :=
  unescape_map_escape text

theorem nat?_ofNat {n : Nat} (small : n < numberBound) : nat? (ofNat n) = some n :=
  natural?_toDigits small

-- A text is not null, so it is never taken for an absent value.
theorem optional?_ofText {α : Type} (decode : Json → Option α) (text : String) :
    Json.optional? decode (ofText text) = (decode (ofText text)).map some := rfl

theorem optional?_ofOption_ofText (o : Option String) :
    Json.optional? text? (ofOption ofText o) = some o := by
  cases o with
  | none => rfl
  | some text =>
      change Json.optional? text? (ofText text) = _
      rw [optional?_ofText, text?_ofText, Option.map_some]

theorem constant?_ofText {α : Type} (ofName? : String → Option α) (name : String) :
    constant? ofName? (ofText name) = ofName? name := by
  rw [ofText, constant?, unescape_escape, Option.bind_some, String.ofList_toList]

theorem mapM_unescape_ofMembers (members : List (String × Json)) :
    (members.map fun (key, value) => (escape key.toList, value)).mapM
      (fun (key, v) => (unescape key).map (String.ofList ·, v)) = some members :=
  mapM_map_eq_some fun member _ => by simp [unescape_escape]

theorem of?_ofMembers {names : List String} {members : List (String × Json)}
    (ordered : (members.map Prod.fst).Sublist names) (distinct : names.Nodup) :
    Fields.of? names (ofMembers members) = some ⟨false, members⟩ := by
  have known : members.filter (fun (key, _) => names.contains key) = members := by
    rw [List.filter_eq_self]
    intro member present
    simpa using ordered.subset (List.mem_map_of_mem present)
  rw [ofMembers, Fields.of?, Fields.ofMembers?, mapM_unescape_ofMembers]
  simp only [Option.bind_eq_bind, Option.bind_some]
  rw [known, if_pos (distinct.sublist ordered)]

end Values

section Sound

theorem isSound_ofText (depth : Nat) (text : String) : isSound depth (ofText text) = true := by
  simp [ofText, isSound, unescape_escape]

theorem fitsFloat_toDigits {n : Nat} (small : n < numberBound) :
    fitsFloat (Nat.toDigits 10 n) = true := by
  have all := Text.isDigit_toDigits n
  have unsigned : (Nat.toDigits 10 n).dropWhile (· = '-') = Nat.toDigits 10 n := by
    obtain ⟨lead, digits, split, apart⟩ := exists_lead_digit n
    rw [split, List.dropWhile_cons_of_neg (by simpa using apart '-' rfl)]
  have whole : (Nat.toDigits 10 n).takeWhile Char.isDigit = Nat.toDigits 10 n :=
    List.takeWhile_eq_self_iff.2 all
  have mantissa : (Nat.toDigits 10 n).dropWhile (fun c => c ≠ 'e' && c ≠ 'E') = [] := by
    rw [List.dropWhile_eq_nil_iff]
    intro c member
    have digit := all c member
    simp only [ne_eq, Bool.and_eq_true, decide_eq_true_eq]
    constructor <;> rintro rfl <;> cases digit
  have value : digitsValue ((Nat.toDigits 10 n).dropWhile (· = '0')) = n := by
    rcases Nat.eq_zero_or_pos n with rfl | positive
    · rfl
    · have lead := Text.head?_toDigits positive
      obtain ⟨first, digits, split⟩ :=
        List.exists_cons_of_ne_nil (Nat.toDigits_ne_nil (n := n) (b := 10))
      have kept : (Nat.toDigits 10 n).dropWhile (· = '0') = Nat.toDigits 10 n := by
        rw [split] at lead ⊢
        exact List.dropWhile_cons_of_neg (by simpa using lead)
      rw [kept]
      exact Nat.ofDigitChars_ten_toDigits
  have below : n < floatBound := Nat.lt_trans small (by decide +kernel)
  unfold fitsFloat
  simp only [unsigned, whole, mantissa, List.drop_length, List.drop_nil, List.append_nil, value]
  simp [digitsValue, below]

theorem isSound_ofNat (depth : Nat) {n : Nat} (small : n < numberBound) :
    isSound depth (ofNat n) = true := by
  rw [ofNat, isSound]
  exact fitsFloat_toDigits small

end Sound

-- What fits is read back from either layout, so no two such values are written alike.
structure Faithful {α : Type} (fits : α → Prop) (encode : α → Json) (decode : Json → Option α) :
    Prop where
  decodes : ∀ a, fits a → ∀ print ∈ layouts, (read? (print (encode a))).bind decode = some a
  injective : ∀ print ∈ layouts, Set.InjOn (fun a => print (encode a)) {a | fits a}

theorem faithful_of_decode {α : Type} {fits : α → Prop} {encode : α → Json}
    {decode : Json → Option α} (plain : ∀ a, Plain (encode a))
    (decodes : ∀ a, fits a → decode (encode a) = some a) : Faithful fits encode decode := by
  have back : ∀ a, fits a → ∀ print ∈ layouts,
      (read? (print (encode a))).bind decode = some a := by
    intro a fit print layout
    rw [(plain a).read?_print layout, Option.bind_some, decodes a fit]
  refine ⟨back, fun print layout a fits b fits' same => Option.some.inj ?_⟩
  calc
    some a = (read? (print (encode a))).bind decode := (back a fits print layout).symm
    _ = (read? (print (encode b))).bind decode := by rw [show print (encode a) = _ from same]
    _ = some b := back b fits' print layout

end Json

open Json

section Lines

theorem ChangeKind.ofJson?_toJson (k : ChangeKind) : ChangeKind.ofJson? k.toJson = some k := by
  rw [toJson, ofJson?, constant?_ofText]
  cases k <;> decide

namespace Record

theorem plain_of_mem_members {r : Record} : ∀ member ∈ r.members, Plain member.2 := by
  obtain ⟨location, line, extension, tag, text⟩ := r
  cases extension <;> cases tag <;> simp [members, plain_ofText, plain_ofNat]

theorem plain_toJson (r : Record) : Plain r.toJson := plain_ofMembers plain_of_mem_members

theorem names_members (r : Record) : (r.members.map Prod.fst).Sublist fieldNames := by
  obtain ⟨location, line, extension, tag, text⟩ := r
  cases extension <;> cases tag <;> simp only [members, fieldNames, Option.map, Option.toList,
    List.map_cons, List.map_nil, List.cons_append, List.nil_append] <;> decide

theorem ofFields?_members {r : Record} (small : r.line < numberBound) :
    ofFields? ⟨false, r.members⟩ = some r := by
  obtain ⟨location, line, extension, tag, text⟩ := r
  cases extension <;> cases tag <;>
    simp [ofFields?, members, Fields.required?, Fields.optional?, Fields.get?, List.lookup_cons,
      optional?_ofText, text?_ofText, nat?_ofNat small]

theorem ofJson?_toJson {r : Record} (small : r.line < numberBound) : ofJson? r.toJson = some r := by
  rw [toJson, ofJson?, of?_ofMembers r.names_members (by decide), Option.bind_some,
    ofFields?_members small]

end Record

namespace Row

theorem plain_toJson (row : Row) : Plain row.toJson := by
  refine plain_ofMembers fun member present => ?_
  rcases List.mem_append.1 present with own | pending
  · exact Record.plain_of_mem_members member own
  · obtain ⟨kind, -, rfl⟩ := Option.map_eq_some_iff.1 (Option.mem_toList.1 pending)
    exact plain_ofText kind.name

theorem isSound_members {r : Record} (small : r.line < numberBound) (depth : Nat) :
    ∀ member ∈ r.members, isSound depth member.2 = true := by
  obtain ⟨location, line, extension, tag, text⟩ := r
  cases extension <;> cases tag <;>
    simp [Record.members, isSound_ofText, isSound_ofNat depth small]

theorem partition_members (r : Record) (pending : Option ChangeKind) :
    (r.members ++ (pending.map fun kind => ("pending", kind.toJson)).toList).partition
        (fun (key, _) => key = "pending") =
      ((pending.map fun kind => ("pending", kind.toJson)).toList, r.members) := by
  have apart : ∀ member ∈ r.members, member.1 ≠ "pending" := by
    intro member present same
    have listed := r.names_members.subset (List.mem_map_of_mem present)
    rw [same] at listed
    exact absurd listed (by decide)
  have none : r.members.filter (fun (key, _) => key = "pending") = [] :=
    List.filter_eq_nil_iff.2 fun member present => by simpa using apart member present
  have all : r.members.filter (fun member => !decide (member.1 = "pending")) = r.members :=
    List.filter_eq_self.2 fun member present => by simpa using apart member present
  rw [List.partition_eq_filter_filter, List.filter_append, List.filter_append, none]
  simp only [Function.comp_def]
  rw [all]
  cases pending <;> simp

theorem ofJson?_toJson {row : Row} (small : row.record.line < numberBound) :
    ofJson? row.toJson = some row := by
  obtain ⟨r, pending⟩ := row
  have sound : r.members.all (fun (_, v) => isSound (deepest - 1) v) = true :=
    List.all_eq_true.2 (isSound_members small _)
  have known : r.members.filter (fun (key, _) => Record.fieldNames.contains key) = r.members := by
    rw [List.filter_eq_self]
    intro member present
    simpa using r.names_members.subset (List.mem_map_of_mem present)
  have distinct : (r.members.map Prod.fst).Nodup :=
    List.Nodup.sublist r.names_members (by decide)
  rw [toJson, ofMembers, ofJson?, mapM_unescape_ofMembers]
  simp only [Option.bind_eq_bind, Option.bind_some]
  rw [partition_members]
  simp only [sound, known, distinct, Record.ofFields?_members small]
  cases pending with
  | none => simp
  | some kind =>
      have read : Json.optional? ChangeKind.ofJson? kind.toJson = some (some kind) := by
        rw [ChangeKind.toJson, optional?_ofText, ← ChangeKind.toJson, kind.ofJson?_toJson,
          Option.map_some]
      simp [read]

end Row

namespace Change

theorem plain_toJson (c : Change) : Plain c.toJson :=
  plain_ofMembers <| by
    simp [plain_ofNat, plain_ofOption plain_ofText, ChangeKind.toJson, plain_ofText]

theorem ofJson?_toJson {c : Change} (small : c.line < numberBound) :
    ofJson? c.toJson = some c := by
  rw [toJson, ofJson?, of?_ofMembers (by simp [fieldNames]) (by decide)]
  simp [Fields.required?, Fields.optional?, Fields.get?, List.lookup_cons, nat?_ofNat small,
    optional?_ofOption_ofText, ChangeKind.ofJson?_toJson]

end Change

namespace ChangeSet

theorem plain_changesToJson (changes : Table Nat Change) : Plain (changesToJson changes) := by
  have written : changesToJson changes = .object
      ((changes.entries.map fun e => (Nat.toDigits 10 e.1, e.2.toJson)).map escapeKey) := by
    simp [changesToJson, escapeKey, escape_digits (Text.isDigit_toDigits _)]
  rw [written]
  refine .object _ fun member listed => ?_
  obtain ⟨e, present, rfl⟩ := List.mem_map.1 listed
  exact e.2.plain_toJson

theorem changesOfJson?_toJson {changes : Table Nat Change}
    (small : ∀ e ∈ changes.entries, e.1 < numberBound ∧ e.2.line < numberBound) :
    changesOfJson? (changesToJson changes) = some changes := by
  rw [changesToJson, changesOfJson?, mapM_map_eq_some fun e present => ?_]
  · simp [Table.ofList_entries]
  · have ⟨key, line⟩ := small e present
    simp [natural?_toDigits key, Change.ofJson?_toJson line]

theorem plain_toJson (set : ChangeSet) : Plain set.toJson :=
  plain_ofMembers <| by simp [plain_ofText, plain_changesToJson]

theorem ofJson?_toJson {set : ChangeSet}
    (small : ∀ e ∈ set.changes.entries, e.1 < numberBound ∧ e.2.line < numberBound) :
    ofJson? set.toJson = some set := by
  rw [toJson, ofJson?, of?_ofMembers (by simp) (by decide)]
  simp [Fields.required?, Fields.get?, List.lookup_cons, text?_ofText, changesOfJson?_toJson small]

end ChangeSet

theorem interchange_faithful :
    Faithful (fun r : Record => r.line < Nat.pow 2 64) Record.toJson Record.ofJson? ∧
      Faithful (fun row : Row => row.record.line < Nat.pow 2 64) Row.toJson Row.ofJson? ∧
      Faithful (fun c : Change => c.line < Nat.pow 2 64) Change.toJson Change.ofJson? ∧
      Faithful (fun set : ChangeSet => ∀ e ∈ set.changes.entries,
          e.1 < Nat.pow 2 64 ∧ e.2.line < Nat.pow 2 64)
        ChangeSet.toJson ChangeSet.ofJson? :=
  ⟨faithful_of_decode Record.plain_toJson fun _ => Record.ofJson?_toJson,
    faithful_of_decode Row.plain_toJson fun _ => Row.ofJson?_toJson,
    faithful_of_decode Change.plain_toJson fun _ => Change.ofJson?_toJson,
    faithful_of_decode ChangeSet.plain_toJson fun _ => ChangeSet.ofJson?_toJson⟩

end Lines

end LineLedger

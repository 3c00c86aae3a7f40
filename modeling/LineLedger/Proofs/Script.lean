import LineLedger.Proofs.Change.Unfused
import LineLedger.Proofs.Interchange
import LineLedger.Proofs.Pending.Accepted
import LineLedger.Proofs.Pending.Affected
import LineLedger.Proofs.Scan.Records
import LineLedger.Python.Parse
import LineLedger.Script

set_option autoImplicit false

namespace LineLedger

open Json (ofText ofNat ofOption)

namespace ScriptEntry

def toJson (e : ScriptEntry) : Json :=
  Json.ofMembers [("file", ofText e.file.text), ("line", ofNat e.line), ("kind", e.kind.toJson),
    ("content", ofOption ofText e.content)]

theorem plain_toJson (e : ScriptEntry) : Json.Plain e.toJson :=
  Json.plain_ofMembers <| by
    simp [ChangeKind.toJson, Json.plain_ofText, Json.plain_ofNat,
      Json.plain_ofOption Json.plain_ofText]

theorem ofJson?_toJson {e : ScriptEntry} (small : e.line < Json.numberBound) :
    ofJson? e.toJson = some e := by
  rw [toJson, ofJson?, Json.of?_ofMembers (by simp) (by decide)]
  simp [Json.Fields.required?, Json.Fields.withDefault?, Json.Fields.get?, List.lookup_cons,
    Json.text?_ofText, Json.nat?_ofNat small, ChangeKind.ofJson?_toJson,
    Json.optional?_ofOption_ofText]

theorem problem?_eq_none {e : ScriptEntry} (positive : e.line ≠ 0)
    (given : e.kind = .delete ∨ e.content ≠ none) : e.problem? = none := by
  rcases given with delete | content
  · simp [problem?, positive, delete]
  · simp [problem?, positive, content]

end ScriptEntry

namespace Script

def Spells (text : String) (entries : List ScriptEntry) : Prop :=
  (Json.read? text).bind entriesOfJson? = some entries

def toJson (entries : List ScriptEntry) : Json := .array (entries.map ScriptEntry.toJson)

theorem spells_print {entries : List ScriptEntry}
    (small : ∀ e ∈ entries, e.line < Json.numberBound) {print : Json → String}
    (layout : print ∈ Json.layouts) : Spells (print (toJson entries)) entries := by
  have plain : Json.Plain (toJson entries) := .array _ fun v member => by
    obtain ⟨e, _, rfl⟩ := List.mem_map.1 member
    exact e.plain_toJson
  rw [Spells, plain.read?_print layout]
  exact mapM_map_eq_some fun e member => ScriptEntry.ofJson?_toJson (small e member)

theorem parse_single {text : String} {e : ScriptEntry} (spelled : Spells text [e])
    (proper : e.problem? = none) (base : Path) :
    parse text base = .ok ⟨[e.anchor base]⟩ := by
  rw [parse, show (Json.read? text).bind entriesOfJson? = _ from spelled]
  simp [ofEntries, check, proper]

end Script

namespace Change

variable {before after : List String} {line : String}

theorem applyTo_at {c : Change} (here : c.line = before.length) :
    c.applyTo (before ++ line :: after) =
      before ++ c.replacement :: if c.kind = .insert then line :: after else after := by
  have within : c.line < (before ++ line :: after).length := by simp [here]
  have shifted : ∀ put, (before ++ line :: after).insertIdx before.length put =
      before ++ put :: line :: after := by
    intro put
    clear here within
    induction before with
    | nil => rfl
    | cons first rest ih => simp [ih]
  rw [applyTo, if_pos within, here]
  cases c.kind with
  | insert => simp [shifted]
  | delete | edit => simp

theorem lines_applyTo_at {text : String} {c : Change} (ended : c.Ended)
    (here : c.line = before.length) (split : Text.lines text = before ++ line :: after) :
    Text.lines (String.join (c.applyTo (Text.lines text))) =
      before ++ Text.lines c.replacement ++
        if c.kind = .insert then line :: after else after := by
  have whole : ∀ lines : List String, lines ⊆ Text.lines text →
      lines.flatMap Text.lines = lines := by
    intro lines among
    rw [List.flatMap_def,
      List.map_congr_left fun l member => Text.lines_of_mem_lines (among member)]
    exact List.flatMap_singleton' lines
  have all : before ⊆ Text.lines text ∧ line :: after ⊆ Text.lines text := by
    rw [split]
    exact ⟨List.subset_append_left _ _, List.subset_append_right _ _⟩
  rw [((Unfused.lines text).applyTo ended).lines_join, split, applyTo_at here, List.flatMap_append,
    List.flatMap_cons, whole before all.1, List.append_assoc]
  split
  · rw [whole _ all.2]
  · rw [whole _ fun l member => all.2 (List.mem_cons_of_mem _ member)]

end Change

namespace Pending

variable {σ : Type}

section Single

variable {d : Disk} {path : Path} {place : FullName} {text : String}

theorem commitFile_single
    (found : d.find path = .ok (place, .file (.text text) false)) (c : Change) :
    (empty.record path c).commitFile d path =
      .ok (empty, d.setNode place
        (.file (.text (String.join (c.applyTo (Text.lines text)))) false)) := by
  have kept : (empty.record path c).sets.get? path.route =
      some ((ChangeSet.empty path).record c) := by
    rw [get?_sets_record, if_pos rfl]
    rfl
  have settled : ((empty.record path c).discard path).2 = empty := by
    refine congrArg Pending.mk (Table.ext_get? fun route => ?_)
    rw [Table.get?_erase, get?_sets_record]
    split <;> rfl
  rw [commitFile_eq kept found, settled]
  rfl

theorem resolveAll_single
    (found : d.find path = .ok (place, .file (.text text) false)) (c : Change)
    {policy : Policy σ} {state : σ} (agrees : (policy.ask state ⟨path, 1, 1⟩).1.accept = true) :
    ∃ later, resolveAll policy ⟨empty.record path c, d, state⟩ =
      (⟨[path], [], []⟩, ⟨empty, d.setNode place
        (.file (.text (String.join (c.applyTo (Text.lines text)))) false), later⟩) := by
  have files : (empty.record path c).affectedFiles = [path] := rfl
  have request : (empty.record path c).request path 1 = ⟨path, 1, 1⟩ := by
    rw [Pending.request, get?, get?_sets_record, if_pos rfl]
    rfl
  rw [resolveAll]
  simp only [files, List.length_singleton]
  rw [resolveEach_cons]
  rcases asked : policy.ask state ⟨path, 1, 1⟩ with ⟨⟨accept, forAll⟩, later⟩
  rw [asked] at agrees
  cases agrees
  refine ⟨later, ?_⟩
  simp only [Policy.consult, request, asked, commitFile_single found, if_true]
  rfl

end Single

end Pending

-- Any text of a script with this entry alone is accepted; recorded and committed to a policy that
-- agrees, it leaves the file with these lines, and nothing is pending.
def Leaves (base : Path) (d : Disk) (e : ScriptEntry) (lines : List String) : Prop :=
  ∀ text, Script.Spells text [e] → ∃ script, Script.parse text base = .ok script ∧
    ∀ (σ : Type) (policy : Policy σ) (state : σ),
      (policy.ask state ⟨base.join e.file, 1, 1⟩).1.accept = true →
      ∃ final written, Pending.resolveAll policy ⟨script.recordInto .empty, d, state⟩ =
          (⟨[base.join e.file], [], []⟩, final) ∧
        final.pending = .empty ∧ final.disk.readText (base.join e.file) = .ok written ∧
        Text.lines written = lines

theorem leaves_entry {base : Path} {d : Disk} {e : ScriptEntry} {place : FullName} {source : String}
    {before after put : List String} {line : String}
    (found : d.find (base.join e.file) = .ok (place, .file (.text source) false))
    (proper : e.problem? = none) (split : Text.lines source = before ++ line :: after)
    (here : e.line = before.length + 1) (replaced : Text.lines e.change.replacement = put) :
    Leaves base d e (before ++ put ++ if e.kind = .insert then line :: after else after) := by
  intro text spelled
  refine ⟨_, Script.parse_single spelled proper base, fun σ policy state agrees => ?_⟩
  obtain ⟨later, resolved⟩ := Pending.resolveAll_single found e.change agrees
  have located := Disk.find_eq_ok_iff.1 found
  refine ⟨_, _, resolved, rfl, Disk.readText_eq_ok_iff.2 ⟨place, false,
    Disk.find_setNode located.2 located.1⟩, ?_⟩
  rw [← replaced]
  refine Change.lines_applyTo_at (Script.ended_change e) ?_ split
  change e.line - 1 = before.length
  omega

section AnyGrammar

variable [Python.Grammar]

inductive Classified (name : String) (extension : Option String) (source : String) :
    List Record → Prop where
  | language (language : Language) :
      Classified name extension source (language.classify name extension source)
  | tree (tree : Python.Tree) : Classified name extension source
      ((Python.scanTree tree source.toList).map (Mark.toRecord name extension))

theorem Classified.describes {name : String} {extension : Option String} {source : String}
    {records : List Record} (classified : Classified name extension source records) :
    Describes name source records := by
  cases classified with
  | language language =>
      obtain ⟨tags, laid, _⟩ := language.marks_onLines source.toList
      rw [Language.classify, laid]
      exact describes_onLines name source _ tags
  | tree tree =>
      rw [Python.scanTree, Python.marks_eq]
      exact describes_onLines name source extension _

theorem script_at_record {name : String} {extension : Option String} {source : String}
    {records : List Record} {r : Record} {base file : Path} {d : Disk} {place : FullName}
    (classified : Classified name extension source records) (member : r ∈ records)
    (found : d.find (base.join file) = .ok (place, .file (.text source) false)) :
    (∀ e : ScriptEntry, e.line < Nat.pow 2 64 → ∀ print ∈ Json.layouts,
      Script.Spells (print (Script.toJson [e])) [e]) ∧
    ∃ before line after, Text.lines source = before ++ line :: after ∧
      r.line = before.length + 1 ∧ r.text.toList = Text.chomp line.toList ∧
      (∀ c, Leaves base d ⟨file, r.line, .edit, some c⟩
        (before ++ Text.lines (Text.terminated c) ++ after)) ∧
      (∀ content, Leaves base d ⟨file, r.line, .delete, content⟩ (before ++ ["\n"] ++ after)) ∧
      ∀ c, Leaves base d ⟨file, r.line, .insert, some c⟩
        (before ++ Text.lines (Text.terminated c) ++ line :: after) := by
  refine ⟨fun e small print layout =>
    Script.spells_print (List.forall_mem_singleton.2 small) layout, ?_⟩
  have described := classified.describes
  obtain ⟨line, breaks, present, chomped, broken, kept⟩ := described.literal r member
  obtain ⟨positive, _⟩ := described.numbered r member
  obtain ⟨within, here⟩ := List.getElem?_eq_some_iff.1 present
  have split : Text.lines source =
      (Text.lines source).take (r.line - 1) ++ line :: (Text.lines source).drop (r.line - 1 + 1) := by
    rw [← here, List.getElem_cons_drop, List.take_append_drop]
  have number : r.line = ((Text.lines source).take (r.line - 1)).length + 1 := by
    rw [List.length_take]
    omega
  have text : r.text.toList = Text.chomp line.toList := by
    have blank : ∀ c ∈ breaks, Text.isBreak c = true := fun c listed =>
      (Text.isBreak_iff c).2 (broken c listed)
    rw [chomped, Text.chomp, Text.dropEndWhile_append blank, Text.dropEndWhile_of_last]
    intro c last
    rw [← Bool.not_eq_true, Text.isBreak_iff, not_or]
    exact kept c last
  have nonzero : r.line ≠ 0 := by omega
  refine ⟨_, line, _, split, number, text, fun c => ?_, fun content => ?_, fun c => ?_⟩
  · exact leaves_entry (e := ⟨file, r.line, .edit, some c⟩) found
      (ScriptEntry.problem?_eq_none nonzero (.inr (Option.some_ne_none c))) split number rfl
  · have blank : Text.lines "\n" = ["\n"] := Text.lines_of_endsLine rfl (by decide)
    exact leaves_entry (e := ⟨file, r.line, .delete, content⟩) found
      (ScriptEntry.problem?_eq_none nonzero (.inl rfl)) split number blank
  · exact leaves_entry (e := ⟨file, r.line, .insert, some c⟩) found
      (ScriptEntry.problem?_eq_none nonzero (.inr (Option.some_ne_none c))) split number rfl

end AnyGrammar

def listing : String := "int x = 1;\r\n\r\nint y = x;"

def shelf : Disk :=
  ⟨⟨.ofList [(["a.c"], .file (.text listing) false)], by decide +kernel⟩, [], ⟨""⟩⟩

theorem script_at_record_listing :
    let r : Record := ⟨"a.c:3", 3, none, some "assignment(0)", "int y = x;"⟩
    r ∈ Language.c.classify "a.c" none listing ∧
    shelf.find ((⟨"."⟩ : Path).join ⟨"a.c"⟩) = .ok (["a.c"], .file (.text listing) false) ∧
    Leaves ⟨"."⟩ shelf ⟨⟨"a.c"⟩, 3, .edit, some "f();\ng();"⟩
      ["int x = 1;\r\n", "\r\n", "f();\n", "g();\n"] ∧
    Leaves ⟨"."⟩ shelf ⟨⟨"a.c"⟩, 3, .delete, none⟩ ["int x = 1;\r\n", "\r\n", "\n"] ∧
    Leaves ⟨"."⟩ shelf ⟨⟨"a.c"⟩, 3, .insert, some "f();"⟩
      ["int x = 1;\r\n", "\r\n", "f();\n", "int y = x;"] := by
  intro r
  have member : r ∈ Language.c.classify "a.c" none listing :=
    List.mem_of_getElem? (i := 2) rfl
  have found : shelf.find ((⟨"."⟩ : Path).join ⟨"a.c"⟩) =
      .ok (["a.c"], .file (.text listing) false) := rfl
  obtain ⟨_, before, line, after, split, number, _, edit, delete, insert⟩ :=
    script_at_record (.language .c) member found
  have lines : ["int x = 1;\r\n", "\r\n"] ++ ["int y = x;"] = before ++ line :: after := by
    rw [← split]
    rfl
  obtain ⟨rfl, rest⟩ := List.append_inj lines (Nat.succ.inj number)
  cases rest
  exact ⟨member, found, edit "f();\ng();", delete none, insert "f();"⟩

end LineLedger

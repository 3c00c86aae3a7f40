import LineLedger.Proofs.Text.Trim
import LineLedger.Proofs.Toml.Quoted
import LineLedger.Toml.Read

set_option autoImplicit false

namespace LineLedger.Toml

structure Opens (c : Char) : Prop where
  space : isSpace c = false
  feed : c ≠ '\n'
  carriage : c ≠ '\r'
  hash : c ≠ '#'

theorem opens_punctuation {c : Char} (listed : c ∈ ['"', '\'', '[', ']', ',']) : Opens c := by
  simp only [List.mem_cons, List.not_mem_nil, or_false] at listed
  rcases listed with rfl | rfl | rfl | rfl | rfl <;> exact ⟨rfl, by decide, by decide, by decide⟩

section Key

variable {rest : List Char}

theorem bareKeyChar_ne {c d : Char} (bare : isBareKeyChar c = true)
    (other : isBareKeyChar d = false) : c ≠ d := by
  rintro rfl
  rw [bare] at other
  cases other

theorem opens_bareKeyChar {c : Char} (bare : isBareKeyChar c = true) : Opens c where
  space := by simp [isSpace, bareKeyChar_ne bare (show isBareKeyChar ' ' = false from rfl),
    bareKeyChar_ne bare (show isBareKeyChar '\t' = false from rfl)]
  feed := bareKeyChar_ne bare rfl
  carriage := bareKeyChar_ne bare rfl
  hash := bareKeyChar_ne bare rfl

theorem takeKey_bare {key : List Char} (bare : isBareKey key = true)
    (stops : ∀ c, rest.head? = some c → isBareKeyChar c = false) :
    takeKey (key ++ rest) = some (key, rest) := by
  have all : ∀ c ∈ key, isBareKeyChar c = true := by
    rw [isBareKey, Bool.and_eq_true, List.all_eq_true] at bare
    exact bare.2
  have taken := Text.takeWhile_append_of_stops all stops
  have left := Text.dropWhile_append_of_stops all stops
  cases key with
  | nil => cases bare
  | cons c more =>
      have here := all c (List.mem_cons_self ..)
      rw [takeKey.eq_3, taken, left]
      · exact fun after same => bareKeyChar_ne here rfl (List.cons.inj same).1
      · exact fun after same => bareKeyChar_ne here rfl (List.cons.inj same).1

theorem plain_of_controls {key : List Char}
    (escapes : (key.any fun c => isControl c && c ≠ '\t') = false) :
    ∀ c ∈ key, isPlain c = true := by
  intro c member
  have plain := List.any_eq_false.1 escapes c member
  by_cases tab : c = '\t'
  · rw [tab]
    rfl
  · exact isPlain_of_not_isControl (by simpa [tab] using plain)

theorem takeKey_writeKey (key : List Char)
    (stops : ∀ c, rest.head? = some c → isBareKeyChar c = false) :
    takeKey (writeKey key ++ rest) = some (key, rest) := by
  have basic : takeKey ('"' :: (writeEscaped false 0 key ++ ['"']) ++ rest) = some (key, rest) := by
    rw [List.cons_append, takeKey.eq_1, List.append_assoc, List.singleton_append]
    exact takeBasic_writeEscaped 0 key rest
  unfold writeKey
  dsimp only
  split
  · rename_i bare
    exact takeKey_bare bare stops
  · split
    · exact basic
    · split
      · rename_i literal
        simp only [Bool.and_eq_true, Bool.not_eq_true'] at literal
        have plain : ∀ c ∈ key, isPlain c = true ∧ c ≠ '\'' := fun c member =>
          ⟨plain_of_controls literal.1 c member, fun same => by
            have absent := literal.2
            rw [List.contains_iff_mem.2 (same ▸ member)] at absent
            cases absent⟩
        rw [List.cons_append, takeKey.eq_2, List.append_assoc, List.singleton_append]
        exact takeLiteral_append plain rest
      · exact basic

theorem writeKey_starts (key : List Char) :
    ∃ first more, writeKey key = first :: more ∧ Opens first ∧ first ≠ '[' ∧ first ≠ '\uFEFF' := by
  have quote : Opens '"' := opens_punctuation (by simp)
  have apostrophe : Opens '\'' := opens_punctuation (by simp)
  unfold writeKey
  dsimp only
  split
  · rename_i bare
    cases key with
    | nil => cases bare
    | cons c more =>
        rw [isBareKey, Bool.and_eq_true, List.all_eq_true] at bare
        have here : isBareKeyChar c = true := bare.2 c (List.mem_cons_self ..)
        exact ⟨c, more, rfl, opens_bareKeyChar here, bareKeyChar_ne here rfl,
          bareKeyChar_ne here (by decide)⟩
  · split
    · exact ⟨_, _, rfl, quote, by decide⟩
    · split
      · exact ⟨_, _, rfl, apostrophe, by decide⟩
      · exact ⟨_, _, rfl, quote, by decide⟩

theorem takeKeys_writeKey (key : List Char)
    (stops : ∀ c, rest.head? = some c → isBareKeyChar c = false)
    (last : (skipSpace rest).head? ≠ some '.') :
    takeKeys (limit - 1) (writeKey key ++ rest) = some ([key], skipSpace rest) := by
  have taken := takeKey_writeKey key stops
  obtain ⟨first, more, starts, opens, _⟩ := writeKey_starts key
  rw [starts, List.cons_append] at taken ⊢
  have kept : skipSpace (first :: (more ++ rest)) = first :: (more ++ rest) :=
    List.dropWhile_cons_of_neg (by simp [opens.space])
  have parts : limit - 1 = Nat.succ 78 := rfl
  rw [parts, takeKeys.eq_2, kept, taken]
  simp only [Option.bind_eq_bind, Option.bind_some]
  split
  · rename_i dot
    rw [dot] at last
    exact absurd rfl last
  · rfl

end Key

section Value

variable {rest : List Char}

theorem skipLines_of_opens {c : Char} (opens : Opens c) (rest : List Char) :
    skipLines false (c :: rest) = some (c :: rest) := by
  rw [skipLines.eq_3]
  · simp [opens.feed, opens.space, opens.hash]
  · exact fun after same => absurd same opens.carriage

theorem skipLines_indent (text : List Char) :
    skipLines false ("\n    ".toList ++ text) = skipLines false text := rfl

theorem writeText_starts (text : List Char) :
    ∃ mark more, writeText text = mark :: more ∧ (mark = '"' ∨ mark = '\'') := by
  unfold writeText
  split
  · exact ⟨_, _, rfl, .inl rfl⟩
  · exact ⟨_, _, rfl, .inr rfl⟩
  · exact ⟨_, _, rfl, .inl rfl⟩
  · exact ⟨_, _, rfl, .inr rfl⟩

theorem opens_mark {mark : Char} (quote : mark = '"' ∨ mark = '\'') :
    Opens mark ∧ mark ≠ ']' := by
  rcases quote with rfl | rfl <;> exact ⟨opens_punctuation (by simp), by decide⟩

theorem takeValue_writeText (steps depth : Nat) (text : List Char)
    (stops : rest.head? ≠ some '"' ∧ rest.head? ≠ some '\'') :
    takeValue (steps + 1) depth (writeText text ++ rest) = some (.text text, rest) := by
  have taken := takeQuoted_writeText text stops
  obtain ⟨mark, more, starts, quote⟩ := writeText_starts text
  rw [starts, List.cons_append] at taken ⊢
  rcases quote with rfl | rfl
  · rw [takeValue.eq_2, taken]
    rfl
  · rw [takeValue.eq_3, taken]
    rfl

theorem takeItems_close (steps depth : Nat) :
    takeItems (steps + 1) depth (']' :: rest) = some ([], rest) := by
  have close : Opens ']' := opens_punctuation (by simp)
  rw [takeItems, skipLines_of_opens close]
  rfl

theorem takeItems_cons {steps depth : Nat} {c : Char} {text more after : List Char} {item : Item}
    {items : List Item} (skipped : skipLines false text = some (c :: more)) (opens : c ≠ ']')
    (taken : takeValue steps depth (c :: more) = some (item, after))
    (ends : after = ']' :: rest ∧ items = [] ∨
      ∃ next, after = ',' :: next ∧ takeItems steps depth next = some (items, rest)) :
    takeItems (steps + 1) depth text = some (item :: items, rest) := by
  have close : Opens ']' := opens_punctuation (by simp)
  have comma : Opens ',' := opens_punctuation (by simp)
  rw [takeItems, skipped]
  split
  · rename_i same
    cases same
    exact absurd rfl opens
  · rename_i same
    cases same
    rcases ends with ⟨rfl, rfl⟩ | ⟨next, rfl, later⟩
    · simp only [taken, skipLines_of_opens close, Option.bind_eq_bind, Option.bind_some]
    · simp only [taken, skipLines_of_opens comma, later, Option.bind_eq_bind, Option.bind_some]
  · rename_i none
    cases none

def itemLines (texts : List (List Char)) : List Char :=
  texts.flatMap fun text => "\n    ".toList ++ writeText text ++ [',']

theorem itemLines_cons (text : List Char) (more : List (List Char)) (after : List Char) :
    itemLines (text :: more) ++ after =
      "\n    ".toList ++ (writeText text ++ ',' :: (itemLines more ++ after)) := by
  simp [itemLines]

theorem length_itemLines (texts : List (List Char)) : texts.length ≤ (itemLines texts).length := by
  induction texts with
  | nil => exact Nat.le_refl 0
  | cons text more ih =>
      have longer := congrArg List.length (itemLines_cons text more [])
      simp only [List.length_append, List.length_cons] at longer ⊢
      omega

theorem takeItems_lines (steps depth : Nat) (texts : List (List Char)) :
    takeItems (steps + texts.length + 1) depth (itemLines texts ++ '\n' :: ']' :: rest) =
      some (texts.map .text, rest) := by
  induction texts with
  | nil =>
      rw [takeItems]
      rfl
  | cons text more ih =>
      have taken : takeValue (steps + more.length + 1) depth
          (writeText text ++ ',' :: (itemLines more ++ '\n' :: ']' :: rest)) = _ :=
        takeValue_writeText _ depth text (by simp)
      obtain ⟨mark, tail, starts, quote⟩ := writeText_starts text
      rw [itemLines_cons]
      rw [starts, List.cons_append] at taken ⊢
      obtain ⟨opens, apart⟩ := opens_mark quote
      refine takeItems_cons ?_ apart taken (.inr ⟨_, rfl, ih⟩)
      rw [skipLines_indent, skipLines_of_opens opens]

theorem takeItems_single (steps depth : Nat) (text : List Char) :
    takeItems (steps + 2) depth (writeText text ++ ']' :: rest) = some ([.text text], rest) := by
  have taken : takeValue (steps + 1) depth (writeText text ++ ']' :: rest) = _ :=
    takeValue_writeText steps depth text (by simp)
  obtain ⟨mark, tail, starts, quote⟩ := writeText_starts text
  rw [starts, List.cons_append] at taken ⊢
  obtain ⟨opens, apart⟩ := opens_mark quote
  exact takeItems_cons (skipLines_of_opens opens _) apart taken (.inl ⟨rfl, rfl⟩)

theorem takeValue_writeTexts (steps depth : Nat) (texts : List (List Char)) :
    takeValue (steps + texts.length + 2) (depth + 1) (writeTexts texts ++ rest) =
      some (.array (texts.map .text), rest) := by
  have items : ∃ body, writeTexts texts ++ rest = '[' :: body ∧
      takeItems (steps + texts.length + 1) depth body = some (texts.map .text, rest) := by
    match texts with
    | [] => exact ⟨_, rfl, takeItems_close steps depth⟩
    | [text] => exact ⟨_, by simp [writeTexts], takeItems_single steps depth text⟩
    | first :: second :: more =>
        refine ⟨_, ?_, takeItems_lines steps depth (first :: second :: more)⟩
        change '[' :: (itemLines (first :: second :: more) ++ ['\n', ']']) ++ rest = _
        simp
  obtain ⟨body, written, taken⟩ := items
  rw [written, takeValue]
  simp [taken]

theorem length_lt_writeTexts (texts : List (List Char)) :
    texts.length + 1 ≤ (writeTexts texts).length := by
  match texts with
  | [] => decide
  | [text] => simp [writeTexts]
  | first :: second :: more =>
      have lines := length_itemLines (first :: second :: more)
      change _ ≤ ('[' :: (itemLines (first :: second :: more) ++ ['\n', ']'])).length
      simp only [List.length_cons, List.length_append] at lines ⊢
      omega

structure Writes (item : Item) (value : List Char) : Prop where
  starts : ∃ first more, value = first :: more ∧ isSpace first = false
  taken : ∀ steps rest, value.length < steps →
    takeValue steps (limit - 1) (value ++ '\n' :: rest) = some (item, '\n' :: rest)

theorem writes_writeText (text : List Char) : Writes (.text text) (writeText text) where
  starts := by
    obtain ⟨mark, more, starts, quote⟩ := writeText_starts text
    exact ⟨mark, more, starts, (opens_mark quote).1.space⟩
  taken steps rest enough := by
    obtain ⟨further, rfl⟩ := Nat.exists_eq_add_of_lt enough
    exact takeValue_writeText _ _ text (by simp)

theorem writes_writeTexts (texts : List (List Char)) :
    Writes (.array (texts.map .text)) (writeTexts texts) where
  starts := by
    unfold writeTexts
    split <;> exact ⟨_, _, rfl, rfl⟩
  taken steps rest enough := by
    have longer := length_lt_writeTexts texts
    have split : steps = steps - texts.length - 2 + texts.length + 2 := by omega
    rw [split]
    exact takeValue_writeTexts _ _ texts

end Value

section Line

variable {doc next final : Document} {rest : List Char}

theorem endLine_feed (rest : List Char) : endLine ('\n' :: rest) = some rest := by
  have kept : skipSpace ('\n' :: rest) = '\n' :: rest := List.dropWhile_cons_of_neg (by decide)
  rw [endLine, kept, skipComment.eq_2]
  · rfl
  · exact fun after same => absurd (List.cons.inj same).1 (show '\n' ≠ '#' by decide)

theorem takeLine_entry {key value : List Char} {item : Item} (writes : Writes item value)
    (added : doc.addValue [key] item = some next) :
    takeLine doc (writeEntry key value ++ rest) = some (next, rest) := by
  have written : writeEntry key value ++ rest =
      writeKey key ++ ' ' :: '=' :: ' ' :: (value ++ '\n' :: rest) := by
    simp [writeEntry]
  have kept : skipSpace (' ' :: '=' :: ' ' :: (value ++ '\n' :: rest)) =
      '=' :: ' ' :: (value ++ '\n' :: rest) := by
    rw [skipSpace, List.dropWhile_cons_of_pos rfl, List.dropWhile_cons_of_neg (by decide)]
  have keys : takeKeys (limit - 1)
      (writeKey key ++ ' ' :: '=' :: ' ' :: (value ++ '\n' :: rest)) = _ :=
    takeKeys_writeKey key (fun c first => by cases first; rfl) (by rw [kept]; simp)
  have shown : skipSpace (' ' :: (value ++ '\n' :: rest)) = value ++ '\n' :: rest := by
    obtain ⟨first, more, rfl, visible⟩ := writes.starts
    rw [skipSpace, List.dropWhile_cons_of_pos rfl, List.cons_append,
      List.dropWhile_cons_of_neg (by simp [visible])]
  have taken := writes.taken ((' ' :: (value ++ '\n' :: rest)).length + 1) rest (by simp; omega)
  obtain ⟨first, more, starts, opens, header, _⟩ := writeKey_starts key
  rw [kept, starts, List.cons_append] at keys
  rw [written, starts, List.cons_append, takeLine.eq_3]
  · simp only [keys, shown, taken, added, endLine_feed, Option.bind_eq_bind, Option.bind_some]
  · exact fun after same => header (List.cons.inj same).1
  · exact fun after same => header (List.cons.inj same).1

theorem takeLine_header {key : List Char} (bare : isBareKey key = true)
    (added : doc.addHeader false [key] = some next) :
    takeLine doc ('[' :: (key ++ ']' :: '\n' :: rest)) = some (next, rest) := by
  have kept : skipSpace (']' :: '\n' :: rest) = ']' :: '\n' :: rest :=
    List.dropWhile_cons_of_neg (by decide)
  have plain : writeKey key = key := by simp [writeKey, bare]
  have keys : takeKeys (limit - 1) (writeKey key ++ ']' :: '\n' :: rest) = _ :=
    takeKeys_writeKey key (fun c first => by cases first; rfl) (by rw [kept]; simp)
  obtain ⟨first, more, starts, _, header, _⟩ := writeKey_starts key
  rw [kept, starts, List.cons_append] at keys
  rw [← plain, starts, List.cons_append, takeLine.eq_2]
  · simp only [keys, added, endLine_feed, Option.bind_eq_bind, Option.bind_some]
  · exact fun after same => header (List.cons.inj same).1

-- From this document on, the lines lead to the final one.
def Leads (doc : Document) (text : List Char) (final : Document) : Prop :=
  ∀ steps, text.length < steps → readLines steps doc text = some final

theorem leads_nil (doc : Document) : Leads doc [] doc := by
  intro steps enough
  obtain ⟨further, rfl⟩ := Nat.exists_eq_add_of_lt enough
  rfl

theorem leads_line {c : Char} {text line : List Char}
    (skipped : skipLines false text = some (c :: line))
    (taken : takeLine doc (c :: line) = some (next, rest)) (shorter : rest.length < text.length)
    (later : Leads next rest final) : Leads doc text final := by
  intro steps enough
  obtain ⟨further, rfl⟩ := Nat.exists_eq_add_of_lt enough
  rw [readLines, skipped]
  simp only [taken, Option.bind_eq_bind, Option.bind_some]
  exact later _ (by omega)

theorem leads_entry {key value : List Char} {item : Item} (writes : Writes item value)
    (added : doc.addValue [key] item = some next) (later : Leads next rest final) :
    Leads doc (writeEntry key value ++ rest) final := by
  have taken : takeLine doc (writeEntry key value ++ rest) = some (next, rest) :=
    takeLine_entry writes added
  have shorter : rest.length < (writeEntry key value ++ rest).length := by
    simp [writeEntry]
    omega
  obtain ⟨first, more, starts, opens, _⟩ := writeKey_starts key
  have split : ∃ line, writeEntry key value ++ rest = first :: line :=
    ⟨_, by rw [writeEntry, starts]; rfl⟩
  obtain ⟨line, split⟩ := split
  rw [split] at taken shorter ⊢
  exact leads_line (skipLines_of_opens opens line) taken shorter later

theorem leads_header {key : List Char} (bare : isBareKey key = true)
    (added : doc.addHeader false [key] = some next) (later : Leads next rest final) :
    Leads doc ('\n' :: '[' :: (key ++ ']' :: '\n' :: rest)) final := by
  have bracket : Opens '[' := opens_punctuation (by simp)
  refine leads_line ?_ (takeLine_header bare added) ?_ later
  · exact skipLines_of_opens bracket _
  · simp
    omega

end Line

section Document

variable {entries inner : List (Key × Item)} {name key : Key} {item : Item}

theorem addValue_root (fresh : entries.lookup key = none) :
    Document.addValue ⟨.table false false entries, []⟩ [key] item =
      some ⟨.table false false (entries ++ [(key, item)]), []⟩ := by
  simp [Document.addValue, splitLast, Item.addValue, Item.update, fresh]

theorem addHeader_root (fresh : entries.lookup name = none) (header : List Key) :
    Document.addHeader ⟨.table false false entries, header⟩ false [name] =
      some ⟨.table false false (entries ++ [(name, .table false false [])]), [name]⟩ := by
  simp [Document.addHeader, splitLast, Item.addTable, Item.update, fresh, Item.emptyTable]

theorem setEntry_last (fresh : entries.lookup name = none) (old new : Item) :
    Item.setEntry name new (entries ++ [(name, old)]) = entries ++ [(name, new)] := by
  induction entries with
  | nil => simp [Item.setEntry]
  | cons e rest ih =>
      rw [List.lookup_cons] at fresh
      split at fresh
      · cases fresh
      · rename_i apart
        have other : e.1 ≠ name := by
          rintro rfl
          simp at apart
        simp [Item.setEntry, other, ih fresh]

theorem addValue_last (named : entries.lookup name = none) (fresh : inner.lookup key = none) :
    Document.addValue ⟨.table false false (entries ++ [(name, .table false false inner)]), [name]⟩
        [key] item =
      some ⟨.table false false (entries ++ [(name, .table false false (inner ++ [(key, item)]))]),
        [name]⟩ := by
  have found : (entries ++ [(name, Item.table false false inner)]).lookup name =
      some (.table false false inner) := by
    simp [List.lookup_append, named]
  simp [Document.addValue, splitLast, Item.addValue, Item.update, found, fresh,
    setEntry_last named]

theorem lookup_eq_none (absent : key ∉ inner.map Prod.fst) : inner.lookup key = none := by
  rw [List.lookup_eq_none_iff]
  intro entry listed
  rw [bne_iff_ne]
  rintro rfl
  exact absent (List.mem_map_of_mem listed)

theorem leads_entries {rest : List Char} {final : Document} (named : entries.lookup name = none)
    (pairs : List (Key × List Char)) (distinct : (inner.map Prod.fst ++ pairs.map Prod.fst).Nodup)
    (later : Leads ⟨.table false false (entries ++ [(name, .table false false
      (inner ++ pairs.map fun pair => (pair.1, Item.text pair.2)))]), [name]⟩ rest final) :
    Leads ⟨.table false false (entries ++ [(name, .table false false inner)]), [name]⟩
      ((pairs.flatMap fun pair => writeEntry pair.1 (writeText pair.2)) ++ rest) final := by
  induction pairs generalizing inner with
  | nil => simpa using later
  | cons pair more ih =>
      have fresh : inner.lookup pair.1 = none := by
        refine lookup_eq_none fun listed => ?_
        exact (List.nodup_append.1 distinct).2.2 _ listed _ (List.mem_cons_self ..) rfl
      rw [List.flatMap_cons, List.append_assoc]
      refine leads_entry (writes_writeText pair.2) (addValue_last named fresh) (ih ?_ ?_)
      · simpa using distinct
      · simpa using later

end Document

end LineLedger.Toml

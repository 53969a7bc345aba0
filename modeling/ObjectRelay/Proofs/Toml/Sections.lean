import ObjectRelay.Proofs.Toml.Value

namespace ObjectRelay.Toml

variable {key name : String} {entries front back : Entries}
  {sections : Sections} {text rest : List Char} {most : Nat}
  {statements : List Statement}

/-- The key is written without quotation marks. -/
structure Bare (key : String) : Prop where
  ne_nil : key.toList ≠ []
  isBare : ∀ character ∈ key.toList, Quoted.isBare character = true

instance (key : String) : Decidable (Bare key) :=
  decidable_of_iff (key.toList ≠ [] ∧ key.toList.all Quoted.isBare = true)
    ⟨fun h => ⟨h.1, List.all_eq_true.mp h.2⟩,
      fun h => ⟨h.ne_nil, List.all_eq_true.mpr h.isBare⟩⟩

/-- Every value is flat, under a key of its own that needs no quotation
marks. -/
structure Entries.Plain (entries : Entries) : Prop where
  bare : ∀ entry ∈ entries, Bare entry.1
  flat : ∀ entry ∈ entries, entry.2.Flat
  nodup : (entries.map Prod.fst).Nodup

structure Sections.Plain (sections : Sections) : Prop where
  bare : ∀ entry ∈ sections, Bare entry.1
  plain : ∀ entry ∈ sections, entry.2.Plain
  nodup : (sections.map Prod.fst).Nodup

theorem Bare.printKey_eq (h : Bare key) : printKey key = key := by
  have hempty : key.isEmpty = false := by
    rw [Bool.eq_false_iff, Ne, String.isEmpty_iff]
    rintro rfl
    exact h.ne_nil rfl
  rw [printKey, hempty, List.all_eq_true.mpr h.isBare]
  rfl

theorem Bare.exists_head (h : Bare key) :
    ∃ first body, key.toList = first :: body ∧ Quoted.isBare first = true := by
  cases hkey : key.toList with
  | nil => exact absurd hkey h.ne_nil
  | cons first body =>
      exact ⟨first, body, rfl, h.isBare first (hkey ▸ List.mem_cons_self)⟩

namespace Document

open Text (Stops stops_cons_iff)
open Scalar (Ends)

theorem keyPart?_append (h : Bare key) (hrest : Stops Quoted.isBare rest) :
    keyPart? (key.toList ++ rest) = some (key, rest) := by
  have hrun := Text.takeWhile_append_of_stops h.isBare hrest
  have hline : Quoted.line? (key.toList ++ rest) = none := by
    obtain ⟨first, body, hkey, hfirst⟩ := h.exists_head
    rw [hkey, List.cons_append, Quoted.line?.eq_def]
    split
    · rename_i hsame
      obtain ⟨rfl, -⟩ := List.cons.inj hsame
      cases hfirst
    · rename_i hsame
      obtain ⟨rfl, -⟩ := List.cons.inj hsame
      cases hfirst
    · rfl
  simp [keyPart?, hline, hrun, h.ne_nil]

theorem key?_append (h : Bare key) (hrest : Stops Quoted.isBare rest)
    (hdot : (skipSpaces rest).head? ≠ some '.') :
    key? (key.toList ++ rest) = some ([key], skipSpaces rest) := by
  have hpart := keyPart?_append h hrest
  obtain ⟨first, body, hkey, hfirst⟩ := h.exists_head
  have hskip : skipSpaces (key.toList ++ rest) = key.toList ++ rest := by
    rw [hkey]
    exact skipSpaces_of_head (not_mem_of_part (by decide) hfirst)
  have hone : key? (key.toList ++ rest) =
      keyParts? (78 + 1) (key.toList ++ rest) := rfl
  rw [hone, keyParts?, hskip]
  simp only [hpart, Option.bind_eq_bind, Option.bind_some]
  split
  · rename_i hsame
    rw [hsame] at hdot
    exact absurd rfl hdot
  · rfl

def entryText (entry : String × Value) : List Char :=
  entry.1.toList ++ ' ' :: '=' :: ' ' :: entry.2.print.toList

theorem entry?_append {entry : String × Value} (levels : Nat)
    (hkey : Bare entry.1) (hvalue : entry.2.Flat) (hends : Ends rest) :
    entry? (value? (levels + 1)) (entryText entry ++ rest) =
      some ([entry.1], entry.2, rest) := by
  have hkeys : key?
      (entry.1.toList ++ ' ' :: '=' :: ' ' :: (entry.2.print.toList ++ rest)) =
      some ([entry.1], '=' :: ' ' :: (entry.2.print.toList ++ rest)) := by
    refine key?_append hkey (stops_cons_iff.mpr rfl) ?_
    show some '=' ≠ some '.'
    decide
  have hread := value?_print levels hvalue hends
  obtain ⟨first, body, hprint, hfirst⟩ := exists_head_of_flat hvalue
  have htext : entryText entry ++ rest =
      entry.1.toList ++ ' ' :: '=' :: ' ' ::
        (entry.2.print.toList ++ rest) := by
    simp [entryText]
  have hspace : skipSpaces (' ' :: (entry.2.print.toList ++ rest)) =
      entry.2.print.toList ++ rest := by
    rw [hprint]
    exact skipSpaces_of_head hfirst
  rw [ entry?, htext, hkeys]
  simp [Scalar.expect?, hspace, hread]

theorem header?_append (h : Bare name) :
    header? (name.toList ++ ']' :: rest) = some (.table [name], rest) := by
  have hread : key? (name.toList ++ ']' :: rest) =
      some ([name], ']' :: rest) := by
    refine key?_append h (stops_cons_iff.mpr rfl) ?_
    show some ']' ≠ some '.'
    decide
  obtain ⟨first, body, hname, hfirst⟩ := h.exists_head
  rw [hname, List.cons_append] at hread ⊢
  unfold header?
  split
  · rename_i hsame
    obtain ⟨rfl, -⟩ := List.cons.inj hsame
    cases hfirst
  · rw [hread]
    rfl

theorem nextLine?_newline (rest : List Char) :
    nextLine? ('\n' :: rest) = some rest := rfl

/-- How statements other than entries begin. -/
def openings : List Char :=
  [' ', '\t', '#', '\n', '\r', '[']

theorem statements?_of_head {first : Char} {body : List Char}
    (h : first ∉ openings) :
    statements? (most + 1) (first :: body) = do
      let (key, value, rest) ← entry? (value? (nestingLimit - 1))
        (first :: body)
      let more ← statements? most (← nextLine? rest)
      return .entry key value :: more := by
  have hspace : skipSpaces (first :: body) = first :: body := by
    refine List.dropWhile_cons_of_neg ?_
    grind [openings]
  rw [statements?, hspace]
  split <;> grind [openings]

/-- The text is read as these statements, the number of which its length
bounds. -/
def Reads (text : List Char) (statements : List Statement) : Prop :=
  ∀ most, text.length < most → statements? most text = some statements

theorem reads_nil : Reads [] [] := by
  intro most hmost
  obtain ⟨count, rfl⟩ : ∃ count, most = count + 1 := ⟨most - 1, by omega⟩
  rfl

theorem Reads.blank (h : Reads text statements) :
    Reads ('\n' :: text) statements := by
  intro most hmost
  obtain ⟨count, rfl⟩ : ∃ count, most = count + 1 := ⟨most - 1, by omega⟩
  exact h count (Nat.lt_of_succ_lt_succ hmost)

theorem Reads.entry {entry : String × Value} (h : Reads text statements)
    (hkey : Bare entry.1) (hvalue : entry.2.Flat) :
    Reads (entryText entry ++ '\n' :: text)
      (.entry [entry.1] entry.2 :: statements) := by
  intro most hmost
  obtain ⟨count, rfl⟩ : ∃ count, most = count + 1 := ⟨most - 1, by omega⟩
  have hends : Ends ('\n' :: text) := by
    rintro character ⟨⟩
    exact .inl rfl
  have hread :
      entry? (value? (nestingLimit - 1)) (entryText entry ++ '\n' :: text) =
      some ([entry.1], entry.2, '\n' :: text) :=
        entry?_append 78 hkey hvalue hends
  have hmore : statements? count text = some statements := by
    rw [List.length_append, List.length_cons] at hmost
    exact h count (by omega)
  obtain ⟨first, body, hentry, hfirst⟩ := hkey.exists_head
  have hhead : entryText entry ++ '\n' :: text =
      first :: (body ++ ' ' :: '=' :: ' ' ::
      entry.2.print.toList ++ '\n' :: text) := by
    simp [entryText, hentry]
  rw [hhead] at hread ⊢
  rw [statements?_of_head (not_mem_of_part (by decide) hfirst), hread]
  simp [nextLine?_newline, hmore]

theorem Reads.header (h : Reads text statements) (hname : Bare name) :
    Reads ('[' :: (name.toList ++ ']' :: '\n' :: text))
      (.table [name] :: statements) := by
  intro most hmost
  obtain ⟨count, rfl⟩ : ∃ count, most = count + 1 := ⟨most - 1, by omega⟩
  have hread : header? (name.toList ++ ']' :: '\n' :: text) =
      some (.table [name], '\n' :: text) := header?_append hname
  have hmore : statements? count text = some statements := by
    rw [List.length_cons, List.length_append, List.length_cons,
      List.length_cons] at hmost
    exact h count (by omega)
  have hspace : skipSpaces ('[' :: (name.toList ++ ']' :: '\n' :: text)) =
      '[' :: (name.toList ++ ']' :: '\n' :: text) := rfl
  rw [statements?, hspace]
  simp [hread, nextLine?_newline, hmore]

def sectionText (entry : String × Entries) : List Char :=
  '[' :: (entry.1.toList ++ ']' :: '\n' :: entry.2.flatMap fun entry =>
    entryText entry ++ ['\n'])

def sectionStatements (entry : String × Entries) : List Statement :=
  .table [entry.1] :: entry.2.map fun entry => .entry [entry.1] entry.2

theorem Reads.entryLines (h : Reads text statements)
    (hentries : entries.Plain) :
    Reads (entries.flatMap (fun entry => entryText entry ++ ['\n']) ++ text)
      (entries.map (fun entry => .entry [entry.1] entry.2) ++ statements) := by
  obtain ⟨hbare, hflat, -⟩ := hentries
  induction entries with
  | nil => exact h
  | cons entry entries ih =>
      rw [List.forall_mem_cons] at hbare hflat
      rw [List.flatMap_cons, List.append_assoc, List.append_assoc]
      exact (ih hbare.2 hflat.2).entry hbare.1 hflat.1

theorem Reads.section {entry : String × Entries} (h : Reads text statements)
    (hname : Bare entry.1) (hentries : entry.2.Plain) :
    Reads (sectionText entry ++ text)
      (sectionStatements entry ++ statements) := by
  have hread := (h.entryLines hentries).header hname
  rw [sectionText, sectionStatements, List.cons_append, List.append_assoc]
  exact hread

theorem reads_sections (h : sections.Plain) :
    Reads (['\n'].intercalate (sections.map sectionText))
      (sections.flatMap sectionStatements) := by
  obtain ⟨hbare, hplain, -⟩ := h
  induction sections with
  | nil => exact reads_nil
  | cons entry others ih =>
      rw [List.forall_mem_cons] at hbare hplain
      cases others with
      | nil =>
          have hread := reads_nil.section hbare.1 hplain.1
          simpa using hread
      | cons other others =>
          have hread := ((ih hbare.2 hplain.2).blank).section hbare.1 hplain.1
          rw [List.map_cons, List.map_cons, List.intercalate_cons_cons,
            List.append_assoc]
          exact hread

theorem alter?_append (change : Option Value → Option Value) (rest : Entries)
    (hnew : key ∉ entries.map Prod.fst) :
    Entries.alter? key change (entries ++ rest) =
      (rest.alter? key change).map (entries ++ ·) := by
  induction entries with
  | nil => simp
  | cons entry entries ih =>
      rw [List.map_cons, List.mem_cons, not_or] at hnew
      have hother : entry.1 ≠ key := Ne.symm hnew.1
      rw [List.cons_append]
      simp [Entries.alter?, hother, ih hnew.2, Option.map_map,
        Function.comp_def]

theorem alter?_new {change : Option Value → Option Value}
    (hnew : key ∉ entries.map Prod.fst) :
    entries.alter? key change = (change none).map fun value =>
      entries ++ [(key, value)] := by
  have halter := alter?_append change [] hnew
  rw [List.append_nil] at halter
  rw [halter, Entries.alter?, Option.map_map]
  rfl

theorem alter?_last {change : Option Value → Option Value} (held : Value)
    (hnew : key ∉ entries.map Prod.fst) :
    Entries.alter? key change (entries ++ [(key, held)]) =
      (change (some held)).map fun value => entries ++ [(key, value)] := by
  rw [alter?_append change [(key, held)] hnew, Entries.alter?, if_pos rfl,
    Option.map_map]
  rfl

theorem add?_header (path : List String) (hnew : name ∉ entries.map Prod.fst) :
    add? (entries, path) (.table [name]) =
      some (entries ++ [(name, .table .header [])], [name]) := by
  rw [add?, Entries.openTable?, Entries.alterPath?, alter?_new hnew]
  rfl

theorem add?_entry (value : Value) (hname : name ∉ entries.map Prod.fst)
    (hkey : key ∉ front.map Prod.fst) :
    add? (entries ++ [(name, .table .header front)], [name])
        (.entry [key] value) =
      some (entries ++ [(name, .table .header (front ++ [(key, value)]))],
        [name]) := by
  have hdefine : Entries.define? value [key] front =
      some (front ++ [(key, value)]) := by
    rw [Entries.define?, alter?_new hkey]
    rfl
  rw [add?, Entries.within?, List.isEmpty_cons, if_neg Bool.false_ne_true,
    Entries.alterPath?, alter?_last (.table .header front) hname]
  simp only [hdefine]
  rfl

theorem foldlM_add?_entries (hname : name ∉ entries.map Prod.fst)
    (hkeys : ((front ++ back).map Prod.fst).Nodup) :
    (back.map fun entry => Statement.entry [entry.1] entry.2).foldlM add?
      (entries ++ [(name, .table .header front)], [name]) =
        some (entries ++ [(name, .table .header (front ++ back))], [name]) := by
  induction back generalizing front with
  | nil => simp
  | cons entry back ih =>
      have hnew : entry.1 ∉ front.map Prod.fst := by
        rw [List.map_append, List.nodup_append] at hkeys
        intro hmem
        exact hkeys.2.2 _ hmem _ List.mem_cons_self rfl
      have hmore : ((front ++ [entry] ++ back).map Prod.fst).Nodup := by
        simpa using hkeys
      rw [List.map_cons, List.foldlM_cons, add?_entry entry.2 hname hnew]
      simpa using ih hmore

/-- The table of a section. -/
def tableOf (entry : String × Entries) : String × Value :=
  (entry.1, .table .header entry.2)

theorem foldlM_add?_section {entry : String × Entries} (path : List String)
    (hname : entry.1 ∉ entries.map Prod.fst)
    (hkeys : (entry.2.map Prod.fst).Nodup) :
    (sectionStatements entry).foldlM add? (entries, path) =
      some (entries ++ [tableOf entry], [entry.1]) := by
  rw [sectionStatements, List.foldlM_cons, add?_header path hname]
  exact foldlM_add?_entries hname hkeys

theorem foldlM_add?_sections (path : List String)
    (hnames : ((entries.map Prod.fst) ++ sections.map Prod.fst).Nodup)
    (hkeys : ∀ entry ∈ sections, (entry.2.map Prod.fst).Nodup) :
    ∃ last, (sections.flatMap sectionStatements).foldlM add? (entries, path) =
      some (entries ++ sections.map tableOf, last) := by
  induction sections generalizing entries path with
  | nil => exact ⟨path, by simp⟩
  | cons entry others ih =>
      rw [List.forall_mem_cons] at hkeys
      have hnew : entry.1 ∉ entries.map Prod.fst := by
        rw [List.nodup_append] at hnames
        intro hmem
        exact hnames.2.2 _ hmem _ List.mem_cons_self rfl
      have hmore : ((entries ++ [tableOf entry]).map Prod.fst ++
          others.map Prod.fst).Nodup := by
        simpa [tableOf] using hnames
      obtain ⟨last, hlast⟩ := ih [entry.1] hmore hkeys.2
      refine ⟨last, ?_⟩
      rw [List.flatMap_cons, List.foldlM_append,
        foldlM_add?_section path hnew hkeys.1]
      simpa using hlast

theorem toList_printEntries (hbare : ∀ entry ∈ entries, Bare entry.1) :
    (String.join ((printEntries entries).map (· ++ "\n"))).toList =
      entries.flatMap fun entry => entryText entry ++ ['\n'] := by
  induction entries with
  | nil => rfl
  | cons entry entries ih =>
      rw [List.forall_mem_cons] at hbare
      rw [printEntries, List.map_cons, String.join_cons, String.toList_append,
        ih hbare.2, List.flatMap_cons]
      simp [entryText, hbare.1.printKey_eq]

theorem toList_print (h : sections.Plain) :
    sections.print.toList = ['\n'].intercalate (sections.map sectionText) := by
  have hsection (entry : String × Entries) (hmem : entry ∈ sections) :
      ("[" ++ printKey entry.1 ++ "]\n" ++
        String.join ((printEntries entry.2).map (· ++ "\n"))).toList =
          sectionText entry := by
    rw [String.toList_append, toList_printEntries (h.plain entry hmem).bare,
      (h.bare entry hmem).printKey_eq]
    simp [sectionText]
  rw [Sections.print, String.toList_intercalate, List.map_map]
  exact congrArg _ (List.map_congr_left hsection)

theorem intercalate_sectionText_ne (sections : Sections) (body : List Char) :
    ['\n'].intercalate (sections.map sectionText) ≠ '\ufeff' :: body := by
  match sections with
  | [] => simp
  | [entry] => simp [sectionText]
  | first :: second :: others =>
      rw [List.map_cons, List.map_cons, List.intercalate_cons_cons, sectionText]
      simp

theorem read?_print (h : sections.Plain) :
    read? sections.print = some (sections.map tableOf) := by
  have hnames :
      ((([] : Entries).map Prod.fst) ++ sections.map Prod.fst).Nodup := by
    simpa using h.nodup
  have hkeys : ∀ entry ∈ sections, (entry.2.map Prod.fst).Nodup :=
    fun entry hmem => (h.plain entry hmem).nodup
  obtain ⟨last, hlast⟩ := foldlM_add?_sections [] hnames hkeys
  rw [List.nil_append] at hlast
  have hstatements := reads_sections h _ (Nat.lt_succ_self _)
  unfold read?
  rw [toList_print h]
  split
  · rename_i hmark
    exact absurd hmark (intercalate_sectionText_ne sections _)
  · simp [hstatements, hlast]

end Document

end ObjectRelay.Toml

import Mathlib.Data.List.Basic
import ObjectRelay.Proofs.Text.Digits
import ObjectRelay.Toml.Quoted

namespace ObjectRelay.Toml.Quoted

variable {text rest body : List Char} {character mark : Char} {run most : Nat}
  {read : List Char → Read}

def prependAll (front : List Char) (found : Read) : Read :=
  found.map fun (text, rest) => (front ++ text, rest)

@[simp] theorem prependAll_nil (found : Read) :
    prependAll [] found = found := by
  cases found <;> rfl

@[simp] theorem prependAll_cons (front : List Char) (found : Read) :
    prependAll (character :: front) found =
      prepend character (prependAll front found) := by
  cases found <;> rfl

/-- The reader takes escapes between its marks. -/
structure Unescapes (read : List Char → Read) : Prop where
  plain : ∀ {character rest}, isPlain character = true → character ≠ '"' →
    character ≠ '\\' →
    read (character :: rest) = prepend character (read rest)
  mark : ∀ {mark character rest}, escaped? mark = some character →
    read ('\\' :: mark :: rest) = prepend character (read rest)
  scalar : ∀ {a b c d character rest}, scalar? [a, b, c, d] = some character →
    read ('\\' :: 'u' :: a :: b :: c :: d :: rest) =
      prepend character (read rest)

theorem unescapes_basicLine : Unescapes basicLine? := by
  refine ⟨?plain, ?mark, ?scalar⟩
  case plain =>
    intro character rest hplain hquote hslash
    rw [basicLine?.eq_def]
    split <;> simp_all
  case mark =>
    intro mark character rest hmark
    unfold escaped? at hmark
    split at hmark <;> cases hmark <;> rfl
  case scalar =>
    intro a b c d character rest hscalar
    rw [basicLine?, hscalar]
    rfl

theorem unescapes_basicLines : Unescapes (basicLines? .none) := by
  refine ⟨?plain, ?mark, ?scalar⟩
  case plain =>
    intro character rest hplain hquote hslash
    have hreturn : character ≠ '\r' := by
      rintro rfl
      cases hplain
    rw [basicLines?.eq_def]
    split <;> simp_all
  case mark =>
    intro mark character rest hmark
    unfold escaped? at hmark
    split at hmark <;> cases hmark <;> rfl
  case scalar =>
    intro a b c d character rest hscalar
    show (scalar? [a, b, c, d]).bind _ = _
    rw [hscalar]
    rfl

/-- The four digits of an escape. -/
def padded (code : Nat) : List Char :=
  List.replicate (4 - (Nat.toDigits 16 code).length) '0' ++
    (Nat.toDigits 16 code).map Char.toUpper

theorem scalar?_padded : ∀ code < 128,
    (padded code).length = 4 ∧
    scalar? (padded code) = some (Char.ofNat code) := by
  decide

theorem toNat_lt_of_not_isPlain (h : isPlain character = false) :
    character.toNat < 128 := by
  simp only [isPlain, Bool.or_eq_false_iff, Bool.and_eq_false_iff,
    decide_eq_false_iff_not] at h
  rcases h.2 with hsmall | hdelete
  · have hspace : character.toNat < ' '.toNat := Char.not_le.mp hsmall
    exact Nat.lt_trans hspace (by decide)
  · rw [not_not.mp hdelete]
    decide

/-- So a character that is written is read, with its escape if it has one. -/
theorem Unescapes.read_escape (h : Unescapes read) (hquote : character ≠ '"') :
    read (escape character ++ rest) = prepend character (read rest) := by
  by_cases hslash : character = '\\'
  · subst hslash
    exact h.mark rfl
  unfold escape
  split
  case h_7 =>
    split
    · rename_i hplain
      exact h.plain hplain hquote hslash
    · rename_i hother
      have hplain : isPlain character = false := Bool.eq_false_iff.mpr hother
      obtain ⟨hlength, hscalar⟩ :=
        scalar?_padded character.toNat (toNat_lt_of_not_isPlain hplain)
      obtain ⟨a, b, c, d, hdigits⟩ := List.length_eq_four.mp hlength
      rw [hdigits, Char.ofNat_toNat] at hscalar
      show read ('\\' :: 'u' :: (padded character.toNat ++ rest)) = _
      rw [hdigits]
      exact h.scalar hscalar
  all_goals exact h.mark rfl

theorem head?_escape {first : Char}
    (h : (escape character ++ rest).head? = some first) :
    first = '\\' ∨ first = character ∧ isPlain character = true := by
  unfold escape at h
  split at h
  case h_7 =>
    split at h
    · rename_i hplain
      exact .inr ⟨(Option.some_inj.mp h).symm, hplain⟩
    · exact .inl (Option.some_inj.mp h).symm
  all_goals exact .inl (Option.some_inj.mp h).symm

/-- What stands for a character other than the mark. -/
def written (lines : Bool) (character : Char) : List Char :=
  if lines && character = '\n' then ['\n'] else escape character

theorem escapeAll_cons {lines : Bool} (hquote : character ≠ '"') :
    escapeAll lines most run (character :: text) =
      written lines character ++ escapeAll lines most 0 text := by
  rw [escapeAll, written]
  exact hquote

theorem head?_written {lines : Bool} {first : Char}
    (h : (written lines character ++ rest).head? = some first) :
    first = '\\' ∨ first = character ∧ character ≠ '\r' := by
  unfold written at h
  split at h
  · rename_i hline
    obtain rfl : character =
      '\n' := by simpa using (Bool.and_eq_true_iff.mp hline).2
    exact .inr ⟨(Option.some_inj.mp h).symm, by decide⟩
  · refine (head?_escape h).imp_right (And.imp_right ?_)
    rintro hplain rfl
    cases hplain

theorem basicLine?_escapeAll (run : Nat) (text rest : List Char) :
    basicLine? (escapeAll false 0 run text ++ '"' :: rest) =
      some (text, rest) := by
  induction text generalizing run with
  | nil => rfl
  | cons character text ih =>
      by_cases hquote : character = '"'
      · subst hquote
        have hmark : escaped? '"' = some '"' := rfl
        show basicLine?
          ('\\' :: '"' :: (escapeAll false 0 0 text ++ '"' :: rest)) = _
        rw [unescapes_basicLine.mark hmark, ih]
        rfl
      · have hread (body : List Char) :
            basicLine? (written false character ++ body) =
            prepend character (basicLine? body) :=
              unescapes_basicLine.read_escape hquote
        rw [escapeAll_cons hquote, List.append_assoc, hread, ih]
        rfl

theorem literalLine?_append
    (hplain : ∀ character ∈ text, isPlain character = true)
    (hmark : '\'' ∉ text) :
    literalLine? (text ++ '\'' :: rest) = some (text, rest) := by
  induction text with
  | nil => rfl
  | cons character text ih =>
      rw [List.forall_mem_cons] at hplain
      rw [List.mem_cons, not_or] at hmark
      have hread (body : List Char) : literalLine? (character :: body) =
          prepend character (literalLine? body) := by
        rw [literalLine?.eq_def]
        split <;> grind
      rw [List.cons_append, hread, ih hplain.2 hmark.2]
      rfl

/-- The reader takes marks in the text, and stops at three that no other
follows. -/
structure ClosedBy (mark : Char) (read : List Char → Read) : Prop where
  inside : ∀ {body}, (∀ rest, body ≠ mark :: mark :: rest) →
    read (mark :: body) = prepend mark (read body)
  close : ∀ {run rest}, run ≤ 2 → rest.head? ≠ some mark →
    read (List.replicate run mark ++ mark :: mark :: mark :: rest) =
      some (List.replicate run mark, rest)

theorem closedBy_basicLines : ClosedBy '"' (basicLines? .none) := by
  refine ⟨?inside, ?close⟩
  case inside =>
    intro body hbody
    have hplain : isPlain '"' = true := rfl
    rw [basicLines?.eq_def]
    split <;> grind
  case close =>
    intro run rest hrun hrest
    interval_cases run
    · show basicLines? .none ('"' :: '"' :: '"' :: rest) = _
      rw [basicLines?.eq_def]
      split <;> grind
    · show basicLines? .none ('"' :: '"' :: '"' :: '"' :: rest) = _
      rw [basicLines?.eq_def]
      split <;> grind
    · rfl

theorem closedBy_literalLines : ClosedBy '\'' literalLines? := by
  refine ⟨?inside, ?close⟩
  case inside =>
    intro body hbody
    have hplain : isPlain '\'' = true := rfl
    rw [literalLines?.eq_def]
    split <;> grind
  case close =>
    intro run rest hrun hrest
    interval_cases run
    · show literalLines? ('\'' :: '\'' :: '\'' :: rest) = _
      rw [literalLines?.eq_def]
      split <;> grind
    · show literalLines? ('\'' :: '\'' :: '\'' :: '\'' :: rest) = _
      rw [literalLines?.eq_def]
      split <;> grind
    · rfl

theorem ClosedBy.read_marks (h : ClosedBy mark read) (hrun : run ≤ 2)
    (hbody : body.head? ≠ some mark) :
    read (List.replicate run mark ++ body) =
      prependAll (List.replicate run mark) (read body) := by
  have hone : ∀ rest, body ≠ mark :: mark :: rest := by
    rintro rest rfl
    exact hbody rfl
  have htwo : ∀ rest, mark :: body ≠ mark :: mark :: rest := by
    rintro rest hsame
    cases hsame
    exact hbody rfl
  interval_cases run
  · simp
  · simp [h.inside hone]
  · simp [List.replicate_succ, h.inside htwo, h.inside hone]

theorem basicLines?_written (hquote : character ≠ '"') (rest : List Char) :
    basicLines? .none (written true character ++ rest) =
      prepend character (basicLines? .none rest) := by
  by_cases hline : character = '\n'
  · subst hline
    show basicLines? .none ('\n' :: rest) = _
    rw [basicLines?.eq_def]
    split <;> grind
  · rw [written, decide_eq_false hline, Bool.and_false,
      if_neg Bool.false_ne_true]
    exact unescapes_basicLines.read_escape hquote

/-- The marks before the text are those that the writer has counted. -/
theorem basicLines?_escapeAll (text : List Char) (hrun : run ≤ 2)
    (hrest : rest.head? ≠ some '"') :
    basicLines? .none (List.replicate run '"' ++
      (escapeAll true 2 run text ++ '"' :: '"' :: '"' :: rest)) =
      some (List.replicate run '"' ++ text, rest) := by
  induction text generalizing run with
  | nil =>
      rw [List.append_nil]
      exact closedBy_basicLines.close hrun hrest
  | cons character text ih =>
      have hmore := ih (Nat.zero_le 2)
      rw [List.replicate_zero, List.nil_append, List.nil_append] at hmore
      by_cases hquote : character = '"'
      · subst hquote
        by_cases hfull : 2 ≤ run
        · have hescape : escapeAll true 2 run ('"' :: text) =
              '\\' :: '"' :: escapeAll true 2 0 text := if_pos hfull
          have hmark : escaped? '"' = some '"' := rfl
          rw [hescape, List.cons_append, List.cons_append,
            closedBy_basicLines.read_marks hrun (by simp),
            unescapes_basicLines.mark hmark, hmore]
          rfl
        · have hescape : escapeAll true 2 run ('"' :: text) =
              '"' :: escapeAll true 2 (run + 1) text := if_neg hfull
          have hnext := ih (Nat.lt_of_not_le hfull)
          rw [List.replicate_succ', List.append_assoc, List.append_assoc]
            at hnext
          rw [hescape]
          exact hnext
      · have hhead : (written true character ++
            (escapeAll true 2 0 text ++ '"' :: '"' :: '"' :: rest)).head? ≠
              some '"' := by
          intro hhead
          rcases head?_written hhead with hslash | ⟨hsame, -⟩
          · cases hslash
          · exact hquote hsame.symm
        rw [escapeAll_cons hquote, List.append_assoc,
          closedBy_basicLines.read_marks hrun hhead,
          basicLines?_written hquote, hmore]
        rfl

/-- No more than so many marks stand in a row, of which some have been seen. -/
def RunsWithin (mark : Char) (most : Nat) : Nat → List Char → Prop
  | _, [] => True
  | run, character :: rest =>
      if character = mark then run < most ∧ RunsWithin mark most (run + 1) rest
      else RunsWithin mark most 0 rest

theorem literalLines?_append
    (hplain : ∀ character ∈ text, needsEscape character = false)
    (hruns : RunsWithin '\'' 2 run text) (hrun : run ≤ 2)
    (hrest : rest.head? ≠ some '\'') :
    literalLines? (List.replicate run '\'' ++
      (text ++ '\'' :: '\'' :: '\'' :: rest)) =
      some (List.replicate run '\'' ++ text, rest) := by
  induction text generalizing run with
  | nil =>
      rw [List.append_nil]
      exact closedBy_literalLines.close hrun hrest
  | cons character text ih =>
      rw [List.forall_mem_cons] at hplain
      by_cases hmark : character = '\''
      · subst hmark
        obtain ⟨hless, hruns⟩ : run < 2 ∧ RunsWithin '\'' 2 (run + 1) text := by
          simpa [RunsWithin] using hruns
        have hmore := ih hplain.2 hruns hless
        rw [List.replicate_succ', List.append_assoc, List.append_assoc] at hmore
        exact hmore
      · have hruns : RunsWithin '\'' 2 0 text := by
          simpa [RunsWithin, hmark] using hruns
        have hmore := ih hplain.2 hruns (Nat.zero_le 2)
        rw [List.replicate_zero, List.nil_append, List.nil_append] at hmore
        have hhead : (character ::
            (text ++ '\'' :: '\'' :: '\'' :: rest)).head? ≠ some '\'' :=
          fun hsame => hmark (Option.some_inj.mp hsame)
        have hread (body : List Char) : literalLines? (character :: body) =
            prepend character (literalLines? body) := by
          have hother := hplain.1
          have hreturn : character ≠ '\r' := by
            rintro rfl
            cases hother
          rw [literalLines?.eq_def]
          split <;> grind [needsEscape]
        rw [List.cons_append, closedBy_literalLines.read_marks hrun hhead,
          hread, hmore]
        rfl

/-- The longest run so far, and the run that the text so far ends with. -/
theorem runsWithin_of_foldl {longest : Nat} (hrun : run ≤ longest)
    (h : (text.foldl
      (fun ((longest : Nat), (current : Nat)) character =>
        let current := if character = mark then current + 1 else 0
        (max longest current, current))
      (longest, run)).1 ≤ most) : RunsWithin mark most run text ∧
      longest ≤ most := by
  induction text generalizing longest run with
  | nil => exact ⟨trivial, h⟩
  | cons character text ih =>
      rw [List.foldl_cons] at h
      obtain ⟨hruns, hlongest⟩ := ih (Nat.le_max_right _ _) h
      rw [Nat.max_le] at hlongest
      refine ⟨?_, hlongest.1⟩
      by_cases hmark : character = mark
      · rw [RunsWithin, if_pos hmark]
        rw [if_pos hmark] at hruns hlongest
        exact ⟨hlongest.2, hruns⟩
      · rw [RunsWithin, if_neg hmark]
        rw [if_neg hmark] at hruns
        exact hruns

theorem runsWithin_of_longestRun (h : longestRun mark text ≤ most) :
    RunsWithin mark most 0 text :=
  (runsWithin_of_foldl (Nat.le_refl 0) h).1

theorem not_mem_of_runsWithin (h : RunsWithin mark 0 0 text) : mark ∉ text := by
  induction text with
  | nil => exact List.not_mem_nil
  | cons character text ih =>
      rw [RunsWithin] at h
      split at h
      · exact absurd h.1 (Nat.lt_irrefl 0)
      · rename_i hother
        rw [List.mem_cons, not_or]
        exact ⟨Ne.symm hother, ih h⟩

theorem isPlain_of_not_needsEscape (h : needsEscape character = false)
    (hline : character ≠ '\n') : isPlain character = true := by
  by_contra hother
  rw [Bool.not_eq_true] at hother
  simp [needsEscape, hother, hline] at h

theorem read?_basicLine (text : List Char) (hrest : rest.head? ≠ some '"') :
    read? ('"' :: (escapeAll false 0 0 text ++ '"' :: rest)) =
      some (text, rest) := by
  have hone : ∀ body, escapeAll false 0 0 text ++ '"' :: rest ≠
      '"' :: '"' :: body := by
    intro body hsame
    cases text with
    | nil =>
        cases hsame
        exact hrest rfl
    | cons character text =>
        by_cases hquote : character = '"'
        · subst hquote
          cases hsame
        · have hhead := congrArg List.head? hsame
          rw [escapeAll_cons hquote, List.append_assoc] at hhead
          rcases head?_written hhead with hslash | ⟨hsame, -⟩
          · cases hslash
          · exact hquote hsame.symm
  have hread : read? ('"' :: (escapeAll false 0 0 text ++ '"' :: rest)) =
      basicLine? (escapeAll false 0 0 text ++ '"' :: rest) := by
    rw [read?.eq_def]
    split <;> grind [line?]
  rw [hread, basicLine?_escapeAll]

theorem read?_literalLine
    (hplain : ∀ character ∈ text, isPlain character = true)
    (hmark : '\'' ∉ text) (hrest : rest.head? ≠ some '\'') :
    read? ('\'' :: (text ++ '\'' :: rest)) = some (text, rest) := by
  have hone : ∀ body, text ++ '\'' :: rest ≠ '\'' :: '\'' :: body := by
    intro body hsame
    cases text with
    | nil =>
        cases hsame
        exact hrest rfl
    | cons character text =>
        obtain ⟨rfl, -⟩ := List.cons.inj hsame
        exact hmark List.mem_cons_self
  have hread : read? ('\'' :: (text ++ '\'' :: rest)) =
      literalLine? (text ++ '\'' :: rest) := by
    rw [read?.eq_def]
    split <;> grind [line?]
  rw [hread, literalLine?_append hplain hmark]

/-- Text of several lines begins on the line behind the marks. -/
def startOf (text : List Char) : List Char :=
  if text.contains '\n' then ['\n'] else []

theorem trimStart_startOf (hline : body.head? = some '\n' → '\n' ∈ text)
    (hreturn : body.head? ≠ some '\r') :
    trimStart (startOf text ++ body) = body := by
  unfold startOf
  split
  · rfl
  · rename_i hnone
    rw [List.contains_iff_mem] at hnone
    rw [List.nil_append, trimStart.eq_def]
    split <;> grind

theorem read?_basicLines (text : List Char) (hrest : rest.head? ≠ some '"') :
    read? ('"' :: '"' :: '"' :: (startOf text ++
      (escapeAll true 2 0 text ++ '"' :: '"' :: '"' :: rest))) =
        some (text, rest) := by
  show basicLines? .none (trimStart _) = _
  have hread := basicLines?_escapeAll text (Nat.zero_le 2) hrest
  rw [List.replicate_zero, List.nil_append, List.nil_append] at hread
  have hhead {first : Char} (hfirst : (escapeAll true 2 0 text ++
      '"' :: '"' :: '"' :: rest).head? = some first) :
      first = '"' ∨ first = '\\' ∨ first ∈ text ∧ first ≠ '\r' := by
    cases text with
    | nil => exact .inl (Option.some_inj.mp hfirst).symm
    | cons character text =>
        by_cases hquote : character = '"'
        · subst hquote
          exact .inl (Option.some_inj.mp hfirst).symm
        · rw [escapeAll_cons hquote, List.append_assoc] at hfirst
          rcases head?_written hfirst with hslash | ⟨rfl, hreturn⟩
          · exact .inr (.inl hslash)
          · exact .inr (.inr ⟨List.mem_cons_self, hreturn⟩)
  rw [trimStart_startOf, hread]
  · intro hline
    rcases hhead hline with hquote | hslash | ⟨hmem, -⟩
    · cases hquote
    · cases hslash
    · exact hmem
  · intro hreturn
    rcases hhead hreturn with hquote | hslash | ⟨-, hne⟩
    · cases hquote
    · cases hslash
    · exact hne rfl

theorem read?_literalLines
    (hplain : ∀ character ∈ text, needsEscape character = false)
    (hruns : RunsWithin '\'' 2 0 text) (hrest : rest.head? ≠ some '\'') :
    read? ('\'' :: '\'' :: '\'' :: (startOf text ++
      (text ++ '\'' :: '\'' :: '\'' :: rest))) = some (text, rest) := by
  show literalLines? (trimStart _) = _
  have hread := literalLines?_append hplain hruns (Nat.zero_le 2) hrest
  rw [List.replicate_zero, List.nil_append, List.nil_append] at hread
  have hhead {first : Char}
      (hfirst : (text ++ '\'' :: '\'' :: '\'' :: rest).head? = some first) :
      first = '\'' ∨ first ∈ text := by
    cases text with
    | nil => exact .inl (Option.some_inj.mp hfirst).symm
    | cons character text =>
        rw [← Option.some_inj.mp hfirst]
        exact .inr List.mem_cons_self
  rw [trimStart_startOf, hread]
  · exact fun hline => (hhead hline).resolve_left (by decide)
  · intro hreturn
    have hescape := hplain _ ((hhead hreturn).resolve_left (by decide))
    cases hescape

theorem exists_print (text : List Char) :
    ∃ mark body, print text = mark :: body ∧ (mark = '"' ∨ mark = '\'') := by
  unfold print
  simp only
  split
  · exact ⟨'"', _, rfl, .inl rfl⟩
  · split
    · exact ⟨'\'', _, rfl, .inr rfl⟩
    · split
      · exact ⟨'"', _, rfl, .inl rfl⟩
      · split
        · exact ⟨'\'', _, rfl, .inr rfl⟩
        · exact ⟨'"', _, rfl, .inl rfl⟩

theorem read?_print (hbasic : rest.head? ≠ some '"')
    (hliteral : rest.head? ≠ some '\'') :
    read? (print text ++ rest) = some (text, rest) := by
  have hbasicLine := read?_basicLine text hbasic
  have hplain (h : (!text.any needsEscape) = true) :
      ∀ character ∈ text, needsEscape character = false := by
    simpa using h
  unfold print
  simp only
  split
  · simpa using hbasicLine
  · split
    · rename_i hform
      simp only [Bool.and_eq_true, decide_eq_true_eq] at hform
      obtain ⟨⟨hescapes, hnone⟩, hlines⟩ := hform
      have hmark : '\'' ∉ text :=
        not_mem_of_runsWithin (runsWithin_of_longestRun (Nat.le_of_eq hnone))
      have hline : '\n' ∉ text := by simpa using hlines
      have hchars : ∀ character ∈ text, isPlain character = true := by
        intro character hmem
        refine isPlain_of_not_needsEscape (hplain hescapes character hmem) ?_
        rintro rfl
        exact hline hmem
      simpa using read?_literalLine hchars hmark hliteral
    · split
      · have hread := read?_basicLines text hbasic
        simpa [startOf] using hread
      · split
        · rename_i hform
          simp only [Bool.and_eq_true, decide_eq_true_eq] at hform
          have hruns := runsWithin_of_longestRun hform.2
          have hread := read?_literalLines (hplain hform.1) hruns hliteral
          simpa [startOf] using hread
        · simpa using hbasicLine

end ObjectRelay.Toml.Quoted

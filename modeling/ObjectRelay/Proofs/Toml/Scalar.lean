import ObjectRelay.Proofs.Text.Digits
import ObjectRelay.Toml.Scalar

namespace ObjectRelay.Toml.Scalar

open Text (Stops stops_nil stops_cons_iff)

variable {digits rest tail : List Char} {character mark : Char}
  {isPart : Char → Bool} {count low high value : Nat}

/-- Behind a value comes the end of its line, a comma, or the bracket that
closes an array. -/
def Ends (rest : List Char) : Prop :=
  ∀ character ∈ rest.head?, character = '\n' ∨ character = ',' ∨ character = ']'

theorem Ends.stops (h : Ends rest) (hline : isPart '\n' = false)
    (hcomma : isPart ',' = false) (hbracket : isPart ']' = false) :
    Stops isPart rest := by
  intro character hmem
  rcases h character hmem with rfl | rfl | rfl
  · exact hline
  · exact hcomma
  · exact hbracket

theorem Ends.head?_ne (h : Ends rest) (hline : character ≠ '\n')
    (hcomma : character ≠ ',') (hbracket : character ≠ ']') :
    rest.head? ≠ some character := by
  intro hhead
  rcases h character hhead with hsame | hsame | hsame
  · exact hline hsame
  · exact hcomma hsame
  · exact hbracket hsame

/-- How whole numbers are written: with digits only, and with no needless
zero. -/
structure Whole (digits : List Char) : Prop where
  ne_nil : digits ≠ []
  isDigit : ∀ digit ∈ digits, Text.isDigit 10 digit = true
  leading : digits.head? = some '0' → digits = ['0']

theorem whole_toDigits (value : Nat) : Whole (Nat.toDigits 10 value) := by
  refine ⟨Nat.toDigits_ne_nil,
    fun _ => Text.isDigit_of_mem_toDigits (by decide) (by decide), ?_⟩
  intro hhead
  by_contra hne
  have hpos : 0 < value :=
    Nat.pos_of_ne_zero fun hzero => hne (by rw [hzero, Nat.toDigits_zero])
  exact Text.head?_toDigits_ne_zero (by decide) hpos hhead

theorem digitRun_append (inside : Bool)
    (hdigits : ∀ digit ∈ digits, Text.isDigit 10 digit = true)
    (hends : Ends rest) :
    digitRun 10 inside (digits ++ rest) = (digits, rest) := by
  induction digits generalizing inside with
  | nil =>
      cases rest with
      | nil => rfl
      | cons character rest =>
          have hother : Text.isDigit 10 character = false :=
            stops_cons_iff.mp (hends.stops rfl rfl rfl)
          have hunderscore : character ≠ '_' := by
            rintro rfl
            exact hends.head?_ne (by decide) (by decide) (by decide) rfl
          simp [digitRun, hother, hunderscore]
  | cons digit digits ih =>
      rw [List.forall_mem_cons] at hdigits
      simp [digitRun, hdigits.1, ih true hdigits.2]

theorem whole?_append (h : Whole digits) (hends : Ends rest) :
    whole? (digits ++ rest) = some (digits, rest) := by
  by_cases hzero : digits.head? = some '0'
  · rw [h.leading hzero]
    rfl
  · have hrun : whole? (digits ++ rest) = digits? 10 (digits ++ rest) := by
      rw [whole?.eq_def]
      split
      · rename_i hsame
        cases digits with
        | nil => exact absurd rfl h.ne_nil
        | cons digit digits =>
            cases hsame
            exact absurd rfl hzero
      · rfl
    rw [hrun, digits?, digitRun_append false h.isDigit hends]
    simp [h.ne_nil]

theorem Whole.exists_head (h : Whole digits) :
    ∃ digit more, digits = digit :: more ∧ Text.isDigit 10 digit = true := by
  cases digits with
  | nil => exact absurd rfl h.ne_nil
  | cons digit more =>
      exact ⟨digit, more, rfl, h.isDigit digit List.mem_cons_self⟩

theorem Whole.head?_ne (h : Whole digits)
    (hother : Text.isDigit 10 character = false) :
    (digits ++ rest).head? ≠ some character := by
  obtain ⟨digit, more, rfl, hdigit⟩ := h.exists_head
  intro hsame
  obtain rfl := Option.some_inj.mp hsame
  rw [hother] at hdigit
  cases hdigit

theorem sign_append (h : Whole digits) :
    sign (digits ++ rest) = (false, digits ++ rest) := by
  have hminus : (digits ++ rest).head? ≠ some '-' := h.head?_ne (by decide)
  have hplus : (digits ++ rest).head? ≠ some '+' := h.head?_ne (by decide)
  unfold sign
  split <;> grind

theorem expect?_eq_some_iff {text body : List Char} :
    expect? mark text = some body ↔ text = mark :: body := by
  cases text with
  | nil => simp [expect?]
  | cons found rest =>
      by_cases hsame : found = mark
      · simp [expect?, hsame]
      · simp [expect?, hsame]

/-- So many digits are no part of a date or a time, in which a mark follows
them. -/
theorem expect?_of_fixed?
    (h : fixed? count low high (digits ++ rest) = some (value, tail))
    (hdigits : ∀ digit ∈ digits, Text.isDigit 10 digit = true)
    (hends : Ends rest) (hmark : Text.isDigit 10 mark = false)
    (hrest : rest.head? ≠ some mark) :
    expect? mark tail = none := by
  rw [Option.eq_none_iff_forall_ne_some]
  intro body hbody
  obtain rfl := expect?_eq_some_iff.mp hbody
  simp only [fixed?] at h
  split at h
  · rename_i hfixed
    have hdrop : (digits ++ rest).drop count = mark :: body :=
      (Prod.mk.inj (Option.some_inj.mp h)).2
    have hsplit := List.take_append_drop count (digits ++ rest)
    rw [hdrop] at hsplit
    have hdigitsRun : (digits ++ rest).takeWhile (Text.isDigit 10) = digits :=
      Text.takeWhile_append_of_stops hdigits (hends.stops rfl rfl rfl)
    have htakeRun : (digits ++ rest).takeWhile (Text.isDigit 10) =
        (digits ++ rest).take count := by
      conv_lhs => rw [← hsplit]
      exact Text.takeWhile_append_of_stops (List.all_eq_true.mp hfixed.2.1)
        (stops_cons_iff.mpr hmark)
    rw [← htakeRun, hdigitsRun] at hsplit
    exact hrest (congrArg List.head? (List.append_cancel_left hsplit).symm)
  · cases h

theorem moment?_append (h : Whole digits) (hends : Ends rest) :
    moment? (digits ++ rest) = none := by
  have hdate : date? (digits ++ rest) = none := by
    cases hyear : fixed? 4 0 9999 (digits ++ rest) with
    | none => simp [date?, hyear]
    | some found =>
        have hmark : expect? '-' found.2 = none :=
          expect?_of_fixed? hyear h.isDigit hends rfl
          (hends.head?_ne (by decide) (by decide) (by decide))
        simp [date?, hyear, hmark]
  have htime : time? (digits ++ rest) = none := by
    cases hhour : fixed? 2 0 23 (digits ++ rest) with
    | none => simp [time?, hourMinute?, hhour]
    | some found =>
        have hmark : expect? ':' found.2 = none :=
          expect?_of_fixed? hhour h.isDigit hends rfl
          (hends.head?_ne (by decide) (by decide) (by decide))
        simp [time?, hourMinute?, hhour, hmark]
  simp [moment?, dateTime?, hdate, htime]

theorem decimal?_append (h : Whole digits) (hends : Ends rest) :
    decimal? (digits ++ rest) = none := by
  have hfraction : fraction? rest = some ([], rest) := by
    have hdot : rest.head? ≠ some '.' :=
      hends.head?_ne (by decide) (by decide) (by decide)
    unfold fraction?
    split <;> grind
  have hexponent : exponent? rest = some (0, rest) := by
    cases rest with
    | nil => rfl
    | cons mark rest =>
        have hmark : ¬ (mark = 'e' ∨ mark = 'E') := by
          rintro (rfl | rfl)
          · exact hends.head?_ne (by decide) (by decide) (by decide) rfl
          · exact hends.head?_ne (by decide) (by decide) (by decide) rfl
        rw [exponent?, if_neg hmark]
  simp [decimal?, sign_append h, whole?_append h hends, hfraction, hexponent]

theorem special?_append (h : Whole digits) :
    special? (digits ++ rest) = none := by
  obtain ⟨digit, more, rfl, hdigit⟩ := h.exists_head
  rw [special?, sign_append h]
  split
  · rename_i hsame
    obtain ⟨rfl, -⟩ := List.cons.inj hsame
    cases hdigit
  · rename_i hsame
    obtain ⟨rfl, -⟩ := List.cons.inj hsame
    cases hdigit
  · rfl

theorem radix?_append (h : Whole digits) (hends : Ends rest) :
    radix? (digits ++ rest) = none := by
  have hletter (letter : Char) (hother : Text.isDigit 10 letter = false)
      (hline : letter ≠ '\n')
      (hcomma : letter ≠ ',') (hbracket : letter ≠ ']') (body : List Char) :
      digits ++ rest ≠ '0' :: letter :: body := by
    intro hsame
    obtain ⟨digit, more, rfl, hdigit⟩ := h.exists_head
    obtain ⟨rfl, hmore⟩ := List.cons.inj hsame
    obtain rfl : more = [] := by simpa using h.leading rfl
    exact hends.head?_ne hline hcomma hbracket (congrArg List.head? hmore)
  unfold radix?
  split
  · rename_i hsame
    exact absurd hsame (hletter 'x' rfl (by decide) (by decide) (by decide) _)
  · rename_i hsame
    exact absurd hsame (hletter 'o' rfl (by decide) (by decide) (by decide) _)
  · rename_i hsame
    exact absurd hsame (hletter 'b' rfl (by decide) (by decide) (by decide) _)
  · rfl

theorem read?_append (h : Whole digits)
    (hvalue : (Text.digitsValue 10 digits : Int) ≤ Int64.maxValue.toInt)
    (hends : Ends rest) :
    read? (digits ++ rest) =
      some (.integer (Text.digitsValue 10 digits), rest) := by
  have hinteger : integer? (digits ++ rest) =
      some ((Text.digitsValue 10 digits : Int), rest) := by
    have hsigned : signed? (digits ++ rest) =
        some ((Text.digitsValue 10 digits : Int), rest) := by
      simp [signed?, sign_append h, whole?_append h hends]
    rw [integer?, radix?_append h hends]
    simp [hsigned, hvalue]
  have htrue : (digits ++ rest).head? ≠ some 't' := h.head?_ne (by decide)
  have hfalse : (digits ++ rest).head? ≠ some 'f' := h.head?_ne (by decide)
  unfold read?
  split
  · grind
  · grind
  · simp only [moment?_append h hends, decimal?_append h hends,
      special?_append h, Option.or_none, hinteger]
    rfl

theorem read?_toDigits {value : Nat}
    (hvalue : (value : Int) ≤ Int64.maxValue.toInt) (hends : Ends rest) :
    read? (Nat.toDigits 10 value ++ rest) = some (.integer value, rest) := by
  have hback : Text.digitsValue 10 (Nat.toDigits 10 value) = value :=
    Text.digitsValue_toDigits (by decide) (by decide) value
  have hread := read?_append (whole_toDigits value) (by rwa [hback]) hends
  rwa [hback] at hread

end ObjectRelay.Toml.Scalar

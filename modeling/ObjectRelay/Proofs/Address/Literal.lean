import ObjectRelay.Address.Literal
import ObjectRelay.Proofs.Text.Digits

namespace ObjectRelay.Literal

open Text (Stops stops_nil stops_cons_iff)

variable {form : NumberForm} {text digits front back rest body : List Char}
  {value slots : Nat} {first isDotted : Bool} {mark : Char}

namespace NumberForm

/-- The digits are a number in this form. -/
structure Spells (form : NumberForm) (digits : List Char) (value : Nat) :
    Prop where
  ne_nil : digits ≠ []
  isDigit : ∀ digit ∈ digits, Text.isDigit form.radix digit = true
  length_le : ∀ most ∈ form.most?, digits.length ≤ most
  value_eq : Text.digitsValue form.radix digits = value
  lt_bound : value < form.bound
  leading : form.leadingZeros = false → 1 < digits.length →
    digits.head? ≠ some '0'

theorem spells_iff
    (hdigits : ∀ digit ∈ digits, Text.isDigit form.radix digit = true) :
    form.Spells digits (Text.digitsValue form.radix digits) ↔
      ¬ (digits.length = 0 ∨ form.most?.any (· < digits.length) = true ∨
        form.bound ≤ Text.digitsValue form.radix digits ∨
        (form.leadingZeros = false ∧ 1 < digits.length ∧
          digits.head? = some '0')) := by
  have hmost : form.most?.any (· < digits.length) = true ↔
      ¬ ∀ most ∈ form.most?, digits.length ≤ most := by
    simp [Option.any_eq_true]
  simp only [not_or, hmost, not_not, not_and, Nat.not_le,
    List.length_eq_zero_iff]
  constructor
  · intro h
    exact ⟨h.ne_nil, h.length_le, h.lt_bound, h.leading⟩
  · rintro ⟨hne, hlength, hbound, hleading⟩
    exact ⟨hne, hdigits, hlength, rfl, hbound, hleading⟩

theorem read?_append (h : form.Spells digits value)
    (hrest : Stops (Text.isDigit form.radix) rest) :
    form.read? (digits ++ rest) = some (value, rest) := by
  obtain rfl := h.value_eq
  simp only [read?, Text.takeWhile_append_of_stops h.isDigit hrest]
  rw [if_neg ((spells_iff h.isDigit).mp h), List.drop_left]

theorem exists_of_read? (h : form.read? text = some (value, rest)) :
    ∃ digits, text = digits ++ rest ∧ form.Spells digits value ∧
      Stops (Text.isDigit form.radix) rest := by
  have hsplit :=
    List.takeWhile_append_dropWhile (p := Text.isDigit form.radix) (l := text)
  have hdrop : text.drop (text.takeWhile (Text.isDigit form.radix)).length =
      text.dropWhile (Text.isDigit form.radix) := by
    calc
      text.drop (text.takeWhile (Text.isDigit form.radix)).length =
          (text.takeWhile (Text.isDigit form.radix) ++
            text.dropWhile (Text.isDigit form.radix)).drop
              (text.takeWhile (Text.isDigit form.radix)).length := by
                rw [hsplit]
      _ = text.dropWhile (Text.isDigit form.radix) := List.drop_left
  have hdigits : ∀ digit ∈ text.takeWhile (Text.isDigit form.radix),
      Text.isDigit form.radix digit = true := fun _ => List.mem_takeWhile_imp
  simp only [read?] at h
  split at h
  · cases h
  · rename_i hfine
    cases h
    refine ⟨_, ?_, (spells_iff hdigits).mpr hfine, ?_⟩
    · rw [hdrop, hsplit]
    · rw [hdrop]
      exact Text.stops_dropWhile _ text

theorem read?_eq_none (hstops : Stops (Text.isDigit form.radix) text) :
    form.read? text = none := by
  cases hread : form.read? text with
  | none => rfl
  | some found =>
      obtain ⟨digits, rfl, hspells, -⟩ := exists_of_read? hread
      cases digits with
      | nil => exact absurd rfl hspells.ne_nil
      | cons digit digits =>
          have hdigit := hspells.isDigit digit List.mem_cons_self
          rw [List.cons_append, stops_cons_iff, hdigit] at hstops
          cases hstops

/-- Numbers as they are printed are spelled so in every form that has room for
them. -/
theorem spells_toDigits (form : NumberForm) (htwo : 1 < form.radix)
    (hradix : form.radix ≤ 16)
    (hmost : ∀ most ∈ form.most?, 0 < most ∧ form.bound ≤ form.radix ^ most)
    (hvalue : value < form.bound) :
    form.Spells (Nat.toDigits form.radix value) value := by
  refine ⟨Nat.toDigits_ne_nil,
    fun _ => Text.isDigit_of_mem_toDigits htwo hradix, ?_,
    Text.digitsValue_toDigits htwo hradix value, hvalue, ?_⟩
  · intro most hmem
    obtain ⟨hpos, hbound⟩ := hmost most hmem
    exact (Nat.length_toDigits_le_iff htwo hpos).mpr
      (Nat.lt_of_lt_of_le hvalue hbound)
  · intro _ hlong
    refine Text.head?_toDigits_ne_zero htwo (Nat.pos_of_ne_zero fun hzero => ?_)
    rw [hzero, Nat.toDigits_zero] at hlong
    exact absurd hlong (by decide)

end NumberForm

def lead (mark : Char) (first : Bool) : List Char :=
  if first then [] else [mark]

theorem expect?_eq_some_iff :
    expect? mark text = some body ↔ text = mark :: body := by
  cases text with
  | nil => simp [expect?]
  | cons found rest =>
      by_cases hsame : found = mark
      · simp [expect?, hsame]
      · simp [expect?, hsame]

theorem lead?_eq_some_iff :
    (if first then some text else expect? mark text) = some body ↔
      text = lead mark first ++ body := by
  cases first with
  | true => simp [lead]
  | false => simp [lead, expect?_eq_some_iff]

/-- Numbers below 256 with dots between them. -/
inductive Dotted : Bool → List Char → List Nat → Prop where
  | nil (first : Bool) : Dotted first [] []
  | cons (first : Bool) {digits text : List Char} {value : Nat}
      {values : List Nat}
      (hdigits : NumberForm.octet.Spells digits value)
        (htext : Dotted false text values) :
      Dotted first (lead '.' first ++ digits ++ text) (value :: values)

variable {values : List Nat} {isPart : Char → Bool}

theorem Dotted.stops (h : Dotted false text values) (hmark : isPart '.' = false)
    (hrest : Stops isPart rest) : Stops isPart (text ++ rest) := by
  cases h with
  | nil => exact hrest
  | cons => exact stops_cons_iff.mpr hmark

theorem dotted?_succ (count : Nat) (first : Bool) (text : List Char) :
    dotted? (count + 1) first text =
      (if first then some text else expect? '.' text).bind fun body =>
        (NumberForm.octet.read? body).bind fun (value, tail) =>
          (dotted? count false tail).bind fun (values, rest) =>
            some (value :: values, rest) := by
  cases first <;> rfl

theorem dotted?_append (h : Dotted first text values)
    (hrest : Stops (Text.isDigit 10) rest) :
    dotted? values.length first (text ++ rest) = some (values, rest) := by
  induction h with
  | nil first => rfl
  | @cons first digits text value values hdigits htext ih =>
      have hlead :
          (if first then some (lead '.' first ++ digits ++ text ++ rest)
          else expect? '.' (lead '.' first ++ digits ++ text ++ rest)) =
          some (digits ++ (text ++ rest)) := lead?_eq_some_iff.mpr (by simp)
      have hstops : Stops (Text.isDigit 10) (text ++ rest) :=
        htext.stops rfl hrest
      have hread := NumberForm.read?_append hdigits hstops
      simp only [List.length_cons, dotted?_succ, hlead, hread, ih,
        Option.bind_some]

theorem exists_of_dotted? {count : Nat}
    (h : dotted? count first text = some (values, rest)) :
    ∃ front, text = front ++ rest ∧ Dotted first front values ∧
      values.length = count ∧
      (count ≠ 0 → Stops (Text.isDigit 10) rest) := by
  induction count generalizing first text values with
  | zero =>
      cases h
      exact ⟨[], rfl, .nil first, rfl, fun hne => absurd rfl hne⟩
  | succ count ih =>
      simp only [dotted?_succ, Option.bind_eq_some_iff] at h
      obtain ⟨body, hlead, ⟨value, tail⟩, hvalue, ⟨others, last⟩, hothers,
        hsome⟩ := h
      cases hsome
      obtain ⟨digits, rfl, hdigits, hstops⟩ := NumberForm.exists_of_read? hvalue
      obtain ⟨front, rfl, hfront, hlength, hend⟩ := ih hothers
      refine ⟨lead '.' first ++ digits ++ front, ?_, .cons first hdigits hfront,
        congrArg Nat.succ hlength, fun _ => ?_⟩
      · rw [lead?_eq_some_iff.mp hlead]
        simp
      · cases hfront with
        | nil => exact hstops
        | cons => exact hend (by simp [← hlength])

theorem v4?_append {octets : Octets 4} (h : Dotted true text values)
    (hbytes : octets.bytes = values.map UInt8.ofNat)
    (hrest : Stops (Text.isDigit 10) rest) :
    v4? (text ++ rest) = some (octets, rest) := by
  have hlength : values.length = 4 := by
    rw [← octets.length_bytes, hbytes, List.length_map]
  have hdotted := dotted?_append h hrest
  rw [hlength] at hdotted
  simp only [v4?, hdotted, Option.bind_eq_bind, Option.bind_some]
  rw [Octets.ofBytes?_eq_some_iff.mpr hbytes]
  rfl

theorem exists_of_v4? {octets : Octets 4} (h : v4? text = some (octets, rest)) :
    ∃ front values, text = front ++ rest ∧ Dotted true front values ∧
      octets.bytes = values.map UInt8.ofNat ∧ Stops (Text.isDigit 10) rest := by
  simp only [v4?, Option.bind_eq_bind, Option.bind_eq_some_iff] at h
  obtain ⟨⟨values, tail⟩, hvalues, found, hfound, hsome⟩ := h
  cases hsome
  obtain ⟨front, htext, hfront, -, hstops⟩ := exists_of_dotted? hvalues
  exact ⟨front, values, htext, hfront, Octets.ofBytes?_eq_some_iff.mp hfound,
    hstops (by decide)⟩

inductive Grouped : Bool → List Char → List Bytes → Bool → Prop where
  | nil (first : Bool) : Grouped first [] [] false
  | dotted (first : Bool) {text : List Char} {values : List Nat}
      {octets : Octets 4}
      (htext : Dotted true text values) (hbytes : octets.bytes =
        values.map UInt8.ofNat) :
      Grouped first (lead ':' first ++ text) [octets.bytes] true
  | cons (first : Bool) {digits text : List Char} {value : Nat}
      {parts : List Bytes}
      {isDotted : Bool} (hdigits : NumberForm.group.Spells digits value)
      (htext : Grouped false text parts isDotted) :
      Grouped first (lead ':' first ++ digits ++ text)
        (Bytes.bigEndian 2 value :: parts) isDotted

/-- What a group or a dotted address is made of. -/
def isGroupPart (character : Char) : Bool :=
  Text.isDigit 16 character || character = '.'

/-- Neither does a group go on here, nor does another one follow. -/
structure Ends (rest : List Char) : Prop where
  stops : Stops isGroupPart rest
  apart : ∀ body, rest = ':' :: body → Stops (Text.isDigit 16) body

variable {parts before after : List Bytes}

theorem isDigit_sixteen (h : Text.isDigit 10 mark = true) :
    Text.isDigit 16 mark = true := by
  obtain ⟨value, hvalue⟩ := Option.isSome_iff_exists.mp h
  obtain ⟨hplain, hsmall⟩ := Option.filter_eq_some_iff.mp hvalue
  refine Option.isSome_iff_exists.mpr ⟨value,
    Option.filter_eq_some_iff.mpr ⟨hplain, ?_⟩⟩
  simp only [decide_eq_true_eq] at hsmall ⊢
  omega

theorem stops_of_isGroupPart (h : Stops isGroupPart rest) :
    Stops (Text.isDigit 16) rest := by
  intro character hmem
  exact (Bool.or_eq_false_iff.mp (h character hmem)).1

theorem stops_ten_of_sixteen (h : Stops (Text.isDigit 16) rest) :
    Stops (Text.isDigit 10) rest := by
  intro character hmem
  rw [Bool.eq_false_iff]
  intro hdigit
  exact Bool.eq_false_iff.mp (h character hmem) (isDigit_sixteen hdigit)

theorem v4?_eq_none_of_stops (h : Stops (Text.isDigit 16) text) :
    v4? text = none := by
  have hread : NumberForm.octet.read? text = none :=
    NumberForm.read?_eq_none (stops_ten_of_sixteen h)
  simp [v4?, dotted?_succ, hread]

theorem ne_dot_of_group (hdigits : NumberForm.group.Spells digits value)
    (hrest : Stops isGroupPart rest) {decimals : List Char}
    (hdecimals : NumberForm.octet.Spells decimals slots)
    (hsplit : digits ++ rest = decimals ++ body) : body.head? ≠ some '.' := by
  have hnot : rest.head? ≠ some '.' := by
    intro hhead
    exact absurd (hrest '.' hhead) (by decide)
  rcases List.append_eq_append_iff.mp hsplit with
    ⟨more, hmore, rfl⟩ | ⟨more, hmore, rfl⟩
  · cases more with
    | nil => exact hnot
    | cons digit more =>
        have hdigit := hdecimals.isDigit digit (by simp [hmore])
        have hpart : isGroupPart digit = true := by
          rw [isGroupPart, isDigit_sixteen hdigit, Bool.true_or]
        have hstops := stops_cons_iff.mp hrest
        rw [hpart] at hstops
        cases hstops
  · cases more with
    | nil => exact hnot
    | cons digit more =>
        rw [List.cons_append, List.head?_cons, Ne, Option.some_inj]
        rintro rfl
        exact absurd (hdigits.isDigit '.' (by simp [hmore])) (by decide)

theorem v4?_eq_none_of_group (hdigits : NumberForm.group.Spells digits value)
    (hrest : Stops isGroupPart rest) : v4? (digits ++ rest) = none := by
  cases hread : NumberForm.octet.read? (digits ++ rest) with
  | none => simp [v4?, dotted?_succ, hread]
  | some found =>
      obtain ⟨number, tail⟩ := found
      obtain ⟨decimals, hsplit, hdecimals, -⟩ :=
        NumberForm.exists_of_read? hread
      have htail : expect? '.' tail = none := by
        rw [Option.eq_none_iff_forall_ne_some]
        intro body hbody
        have hhead := ne_dot_of_group hdigits hrest hdecimals hsplit
        rw [expect?_eq_some_iff.mp hbody] at hhead
        exact hhead rfl
      simp [v4?, dotted?_succ, hread, htail]

theorem Grouped.stops (h : Grouped false text parts isDotted)
    (hrest : Stops isGroupPart rest) :
    Stops isGroupPart (text ++ rest) := by
  cases h with
  | nil => exact hrest
  | dotted => exact stops_cons_iff.mpr rfl
  | cons => exact stops_cons_iff.mpr rfl

theorem groups_of_stops (slots : Nat) (first : Bool)
    (hbody : ∀ body, text = lead ':' first ++ body →
      Stops (Text.isDigit 16) body) :
    groups slots first text = ([], false, text) := by
  cases slots with
  | zero => rfl
  | succ slots =>
      cases hlead : (if first then some text else expect? ':' text) with
      | none => simp only [groups, hlead]
      | some body =>
          have hstops := hbody body (lead?_eq_some_iff.mp hlead)
          have hv4 := v4?_eq_none_of_stops hstops
          have hgroup : NumberForm.group.read? body = none :=
            NumberForm.read?_eq_none hstops
          simp only [groups, hlead, hv4, hgroup, ite_self]

theorem groups_append (h : Grouped first text parts isDotted)
    (hslots : parts.flatten.length ≤ 2 * slots) (hends : Ends rest) :
    groups slots first (text ++ rest) = (parts, isDotted, rest) := by
  induction h generalizing slots with
  | nil first =>
      refine groups_of_stops slots first ?_
      intro body hbody
      cases first with
      | true =>
          rw [List.nil_append, lead, if_pos rfl, List.nil_append] at hbody
          exact hbody ▸ stops_of_isGroupPart hends.stops
      | false => exact hends.apart body hbody
  | @dotted first text values octets htext hbytes =>
      obtain ⟨more, rfl⟩ : ∃ more, slots = more + 1 + 1 := by
        rw [List.flatten_singleton, octets.length_bytes] at hslots
        exact ⟨slots - 2, by omega⟩
      have hlead : (if first then some (lead ':' first ++ text ++ rest)
          else expect? ':' (lead ':' first ++ text ++ rest)) =
            some (text ++ rest) :=
        lead?_eq_some_iff.mpr (List.append_assoc ..)
      have hv4 := v4?_append htext hbytes
        (stops_ten_of_sixteen (stops_of_isGroupPart hends.stops))
      simp only [groups, hlead, Nat.succ_pos, if_true, hv4]
  | @cons first digits text value parts isDotted hdigits htext ih =>
      rw [List.flatten_cons, List.length_append, Bytes.length_bigEndian]
        at hslots
      obtain ⟨more, rfl⟩ : ∃ more, slots = more + 1 := ⟨slots - 1, by omega⟩
      have hlead :
          (if first then some (lead ':' first ++ digits ++ text ++ rest)
          else expect? ':' (lead ':' first ++ digits ++ text ++ rest)) =
          some (digits ++ (text ++ rest)) := lead?_eq_some_iff.mpr (by simp)
      have hstops := htext.stops hends.stops
      have hv4 := v4?_eq_none_of_group hdigits hstops
      have hgroup :=
        NumberForm.read?_append hdigits (stops_of_isGroupPart hstops)
      have hmore : groups more false (text ++ rest) = (parts, isDotted, rest) :=
        ih (by omega)
      simp only [groups, hlead, hv4, hgroup, ite_self, hmore]

theorem exists_of_groups
    (h : groups slots first text = (parts, isDotted, rest)) :
    ∃ front, text = front ++ rest ∧ Grouped first front parts isDotted ∧
      parts.flatten.length ≤ 2 * slots := by
  induction slots generalizing first text parts with
  | zero =>
      cases h
      exact ⟨[], rfl, .nil first, Nat.le_refl 0⟩
  | succ slots ih =>
      cases hlead : (if first then some text else expect? ':' text) with
      | none =>
          simp only [groups, hlead] at h
          cases h
          exact ⟨[], rfl, .nil first, Nat.zero_le _⟩
      | some body =>
          have htext := lead?_eq_some_iff.mp hlead
          cases hv4 : (if 0 < slots then v4? body else none) with
          | some found =>
              obtain ⟨octets, tail⟩ := found
              simp only [groups, hlead, hv4] at h
              cases h
              split at hv4
              · rename_i hroom
                obtain ⟨front, values, rfl, hfront, hbytes, -⟩ :=
                  exists_of_v4? hv4
                refine ⟨_, ?_, .dotted first hfront hbytes, ?_⟩
                · rw [htext, List.append_assoc]
                · rw [List.flatten_singleton, octets.length_bytes]
                  omega
              · cases hv4
          | none =>
              cases hgroup : NumberForm.group.read? body with
              | none =>
                  simp only [groups, hlead, hv4, hgroup] at h
                  cases h
                  exact ⟨[], rfl, .nil first, Nat.zero_le _⟩
              | some found =>
                  obtain ⟨value, tail⟩ := found
                  obtain ⟨digits, rfl, hdigits, -⟩ :=
                    NumberForm.exists_of_read? hgroup
                  rcases hmore : groups slots false tail with
                    ⟨others, dotted, last⟩
                  simp only [groups, hlead, hv4, hgroup, hmore] at h
                  cases h
                  obtain ⟨front, rfl, hfront, hlength⟩ := ih hmore
                  refine ⟨_, ?_, .cons first hdigits hfront, ?_⟩
                  · rw [htext]
                    simp
                  · rw [List.flatten_cons, List.length_append,
                      Bytes.length_bigEndian]
                    omega

theorem Grouped.even (h : Grouped first text parts isDotted) :
    2 * (parts.flatten.length / 2) = parts.flatten.length := by
  induction h with
  | nil first => rfl
  | @dotted first text values octets htext hbytes =>
      rw [List.flatten_singleton, octets.length_bytes]
  | cons first hdigits htext ih =>
      rw [List.flatten_cons, List.length_append, Bytes.length_bigEndian]
      omega

/-- The bytes of the address, with zeros between those before and those behind
the colons. -/
def filled (before after : Bytes) : Bytes :=
  before ++ List.replicate (16 - before.length - after.length) 0 ++ after

theorem ends_colon (hstops : Stops (Text.isDigit 16) rest) :
    Ends (':' :: rest) := by
  refine ⟨stops_cons_iff.mpr rfl, ?_⟩
  rintro body hbody
  cases hbody
  exact hstops

variable {octets : Octets 16}

theorem v6?_append (h : Grouped true text parts isDotted)
    (hbytes : octets.bytes = parts.flatten) (hends : Ends rest) :
    v6? (text ++ rest) = some (octets, rest) := by
  have hlength : parts.flatten.length ≤ 2 * 8 := by
    rw [← hbytes, octets.length_bytes]
  simp only [v6?, groups_append h hlength hends,
    Octets.ofBytes?_eq_some_iff.mpr hbytes]

theorem v6?_of_gap {tail : List Char}
    (hgroups : groups 8 true text = (before, false, ':' :: ':' :: tail))
    (hshort : before.flatten.length ≠ 16) :
    v6? text = (Octets.ofBytes? 16 (filled before.flatten
      (groups (7 - before.flatten.length / 2) true tail).1.flatten)).map
        (·, (groups (7 - before.flatten.length / 2) true tail).2.2) := by
  have hnone : Octets.ofBytes? 16 before.flatten = none := dif_neg hshort
  simp only [v6?, hgroups, hnone, expect?, Option.bind_eq_bind,
    Option.bind_some, if_true, Bool.false_eq_true, if_false,
    Option.map_eq_bind, filled]
  rfl

theorem v6?_append_gap (hfront : Grouped true front before false)
    (hback : Grouped true back after isDotted) (hends : Ends rest)
    (hlength : before.flatten.length + after.flatten.length ≤ 14)
    (hbytes : octets.bytes = filled before.flatten after.flatten) :
    v6? (front ++ ':' :: ':' :: (back ++ rest)) = some (octets, rest) := by
  have heven := hfront.even
  have hgroups : groups 8 true (front ++ ':' :: ':' :: (back ++ rest)) =
      (before, false, ':' :: ':' :: (back ++ rest)) :=
    groups_append hfront (by omega) (ends_colon (stops_cons_iff.mpr rfl))
  have hmore : groups (7 - before.flatten.length / 2) true (back ++ rest) =
      (after, isDotted, rest) := groups_append hback (by omega) hends
  rw [v6?_of_gap hgroups (by omega), hmore,
    Octets.ofBytes?_eq_some_iff.mpr hbytes]
  rfl

theorem v6?_append_of_short (h : Grouped true text parts false)
    (hlength : parts.flatten.length < 16) (hends : Ends rest)
    (hcolons : ∀ tail, rest ≠ ':' :: ':' :: tail) :
    v6? (text ++ rest) = none := by
  have hgroups : groups 8 true (text ++ rest) = (parts, false, rest) :=
    groups_append h (by omega) hends
  have hshort : Octets.ofBytes? 16 parts.flatten = none := dif_neg (by omega)
  cases hfirst : expect? ':' rest with
  | none =>
      simp only [v6?, hgroups, hshort, hfirst, Option.bind_eq_bind,
        Option.bind_none, ite_self]
  | some tail =>
      have hsecond : expect? ':' tail = none := by
        rw [Option.eq_none_iff_forall_ne_some]
        intro body hbody
        rw [expect?_eq_some_iff.mp hbody] at hfirst
        exact hcolons body (expect?_eq_some_iff.mp hfirst)
      simp only [v6?, hgroups, hshort, hfirst, hsecond, Option.bind_eq_bind,
        Option.bind_some, Option.bind_none, ite_self]

theorem exists_of_v6? (h : v6? text = some (octets, rest)) :
    (∃ front parts isDotted, text = front ++ rest ∧
      Grouped true front parts isDotted ∧
      octets.bytes = parts.flatten) ∨
    ∃ front before back after isDotted,
      text = front ++ ':' :: ':' :: (back ++ rest) ∧
      Grouped true front before false ∧ Grouped true back after isDotted ∧
      before.flatten.length + after.flatten.length ≤ 14 ∧
      octets.bytes = filled before.flatten after.flatten := by
  rcases hgroups : groups 8 true text with ⟨before, isDotted, tail⟩
  obtain ⟨front, rfl, hfront, hlength⟩ := exists_of_groups hgroups
  cases hwhole : Octets.ofBytes? 16 before.flatten with
  | some found =>
      simp only [v6?, hgroups, hwhole] at h
      cases h
      exact .inl ⟨front, before, isDotted, rfl, hfront,
        Octets.ofBytes?_eq_some_iff.mp hwhole⟩
  | none =>
      cases isDotted with
      | true => simp [v6?, hgroups, hwhole] at h
      | false =>
          have hshort : before.flatten.length ≠ 16 := by
            intro hfull
            rw [Octets.ofBytes?, dif_pos hfull] at hwhole
            cases hwhole
          obtain ⟨back, rfl⟩ : ∃ back, tail = ':' :: ':' :: back := by
            simp only [v6?, hgroups, hwhole, Option.bind_eq_bind,
              Option.bind_eq_some_iff, expect?_eq_some_iff, Bool.false_eq_true,
              if_false] at h
            obtain ⟨second, hfirst, back, rfl, -⟩ := h
            exact ⟨back, hfirst⟩
          rw [v6?_of_gap hgroups hshort, Option.map_eq_some_iff] at h
          rcases hmore : groups (7 - before.flatten.length / 2) true back with
            ⟨after, isDotted, last⟩
          rw [hmore] at h
          obtain ⟨found, hfound, hsome⟩ := h
          cases hsome
          obtain ⟨behind, rfl, hback, hroom⟩ := exists_of_groups hmore
          have heven := hfront.even
          exact .inr ⟨front, before, behind, after, isDotted, rfl, hfront,
            hback, by omega, Octets.ofBytes?_eq_some_iff.mp hfound⟩

end ObjectRelay.Literal

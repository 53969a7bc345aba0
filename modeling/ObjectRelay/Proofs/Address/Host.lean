import ObjectRelay.Address.Host
import ObjectRelay.Proofs.Address.Display

namespace ObjectRelay

/-! Peers as people write them.  An address with its port is understood, and so
is an IPv4 address without one; but of an IPv6 address without a port, the last
group is taken for the port. -/

open Text (Stops stops_nil stops_cons_iff)

namespace Literal

variable {form other : NumberForm} {text digits rest : List Char} {value : Nat}
  {values : List Nat} {parts : List Bytes} {first isDotted : Bool}
  {octets : Octets 16}

/-- Digits that are read without regard to zeros at the front, in a radix and up
to a bound. -/
theorem NumberForm.Spells.relax (h : form.Spells digits value)
    (hradix : other.radix = form.radix) (hmost : other.most? = none)
    (hbound : form.bound ≤ other.bound) (hzeros : other.leadingZeros = true) :
    other.Spells digits value := by
  refine ⟨h.ne_nil, hradix ▸ h.isDigit, ?_, hradix ▸ h.value_eq,
    Nat.lt_of_lt_of_le h.lt_bound hbound, ?_⟩
  · rw [hmost]
    rintro most ⟨⟩
  · intro hnone
    exact absurd (hzeros.symm.trans hnone) (by decide)

theorem Dotted.exists_behind_dot (h : Dotted false text values)
    (hne : values ≠ []) :
    ∃ body, text = '.' :: body ∧ Dotted true body values := by
  cases h with
  | nil => exact absurd rfl hne
  | cons _ hdigits htext => exact ⟨_, rfl, .cons true hdigits htext⟩

theorem Dotted.isPart (h : Dotted first text values) :
    ∀ character ∈ text, Text.isDigit 10 character = true ∨ character = '.' := by
  induction h with
  | nil first => simp
  | @cons first digits text value values hdigits htext ih =>
      intro character hmem
      rw [List.mem_append, List.mem_append] at hmem
      rcases hmem with (hlead | hdigit) | hmore
      · cases first with
        | true => cases hlead
        | false => exact .inr (List.mem_singleton.mp hlead)
      · exact .inl (hdigits.isDigit character hdigit)
      · exact ih character hmore

theorem Grouped.exists_behind_colon (h : Grouped false text parts isDotted)
    (hne : parts ≠ []) :
    ∃ body, text = ':' :: body := by
  cases h with
  | nil => exact absurd rfl hne
  | dotted => exact ⟨_, rfl⟩
  | cons => exact ⟨_, rfl⟩

theorem Grouped.exists_last (h : Grouped first text parts isDotted)
    (hne : parts ≠ []) :
    ∃ others last front piece, parts = others ++ [last] ∧
      text = front ++ lead ':' (first && others.isEmpty) ++ piece ∧
      Grouped first front others false ∧ ':' ∉ piece ∧
      (last.length = 4 ∧ '.' ∈ piece ∨
        ∃ value, NumberForm.group.Spells piece value ∧
          last = Bytes.bigEndian 2 value) := by
  induction h with
  | nil first => exact absurd rfl hne
  | @dotted first text values octets htext hbytes =>
      refine ⟨[], octets.bytes, [], text, rfl, by simp, .nil first, ?_,
        .inl ⟨octets.length_bytes, ?_⟩⟩
      · intro hmem
        exact absurd (htext.isPart ':' hmem) (by decide)
      · have hlength : values.length = 4 := by
          rw [← octets.length_bytes, hbytes, List.length_map]
        cases htext with
        | nil => cases hlength
        | cons _ hdigits hmore =>
            obtain ⟨body, rfl, -⟩ := hmore.exists_behind_dot (by
              rintro rfl
              cases hlength)
            simp
  | @cons first digits text value parts isDotted hdigits htext ih =>
      by_cases hlast : parts = []
      · subst hlast
        cases htext with
        | nil =>
            refine ⟨[], _, [], digits, rfl, by simp, .nil first, ?_,
              .inr ⟨value, hdigits, rfl⟩⟩
            intro hmem
            exact absurd (hdigits.isDigit ':' hmem) (by decide)
      · obtain ⟨others, last, front, piece, rfl, rfl, hfront, hpiece, hkind⟩ :=
          ih hlast
        refine ⟨Bytes.bigEndian 2 value :: others, last, _, piece, rfl, ?_,
          .cons first hdigits hfront, hpiece, hkind⟩
        simp [lead]

theorem Grouped.exists_last_of_whole (h : Grouped true text parts isDotted)
    (hlength : parts.flatten.length = 16) :
    ∃ others front piece, text = front ++ ':' :: piece ∧
      Grouped true front others false ∧
      others.flatten.length < 16 ∧ ':' ∉ piece ∧
      ('.' ∈ piece ∨ ∃ value, NumberForm.group.Spells piece value) := by
  have hne : parts ≠ [] := by
    rintro rfl
    cases hlength
  obtain ⟨others, last, front, piece, rfl, rfl, hfront, hpiece, hkind⟩ :=
    h.exists_last hne
  have hlast : last.length = 2 ∨ last.length = 4 := by
    rcases hkind with ⟨hlast, -⟩ | ⟨value, -, rfl⟩
    · exact .inr hlast
    · exact .inl (Bytes.length_bigEndian 2 value)
  rw [List.flatten_append, List.length_append, List.flatten_singleton]
    at hlength
  refine ⟨others, front, piece, ?_, hfront, by omega, hpiece, ?_⟩
  · cases others with
    | nil => simp at hlength; omega
    | cons other others => simp [lead]
  · rcases hkind with ⟨-, hdot⟩ | ⟨value, hvalue, -⟩
    · exact .inl hdot
    · exact .inr ⟨value, hvalue⟩

theorem Grouped.length_le (h : Grouped first text parts isDotted) :
    parts.flatten.length ≤ 4 * (text.count ':' + first.toNat) := by
  have hlead (first : Bool) :
      (lead ':' first).count ':' + first.toNat = 1 := by
    cases first <;> rfl
  induction h with
  | nil first => exact Nat.zero_le _
  | @dotted first text values octets htext hbytes =>
      have hone := hlead first
      rw [List.flatten_singleton, octets.length_bytes, List.count_append]
      omega
  | @cons first digits text value parts isDotted hdigits htext ih =>
      have hone := hlead first
      rw [List.flatten_cons, List.length_append, Bytes.length_bigEndian,
        List.count_append, List.count_append]
      simp only [Bool.toNat_false] at ih
      omega

theorem two_le_count_of_v6? (h : v6? text = some (octets, rest)) :
    2 ≤ text.count ':' := by
  rcases exists_of_v6? h with ⟨front, parts, isDotted, rfl, hfront, hbytes⟩ |
    ⟨front, before, back, after, isDotted, rfl, -, -, -, -⟩
  · have hlength := hfront.length_le
    rw [← hbytes, octets.length_bytes, Bool.toNat_true] at hlength
    rw [List.count_append]
    omega
  · rw [List.count_append, List.count_cons_self, List.count_cons_self]
    omega

theorem colon_mem_of_v6? (h : v6? text = some (octets, rest)) : ':' ∈ text :=
  List.count_pos_iff.mp (Nat.lt_of_lt_of_le Nat.zero_lt_two
    (two_le_count_of_v6? h))

theorem v4?_eq_none_of_grouped (h : Grouped true text parts isDotted)
    (hlong : isDotted = true → 4 < parts.flatten.length)
    (hrest : parts.flatten.length ≤ 2 → Stops isGroupPart rest) :
    v4? (text ++ rest) = none := by
  cases h with
  | nil =>
      exact v4?_eq_none_of_stops (stops_of_isGroupPart (hrest (Nat.zero_le 2)))
  | @dotted _ text values octets =>
      rw [List.flatten_singleton, octets.length_bytes] at hlong
      exact absurd (hlong rfl) (by decide)
  | @cons _ digits text value parts _ hdigits htext =>
      show v4? (digits ++ text ++ rest) = none
      rw [List.append_assoc]
      refine v4?_eq_none_of_group hdigits ?_
      by_cases hone : parts = []
      · subst hone
        cases htext with
        | nil => exact hrest (by simp)
      · obtain ⟨body, rfl⟩ := htext.exists_behind_colon hone
        exact stops_cons_iff.mpr rfl

/-- What begins with an IPv6 address does not begin with an IPv4 address. -/
theorem v4?_eq_none_of_v6? (h : v6? text = some (octets, rest)) :
    v4? text = none := by
  rcases exists_of_v6? h with ⟨front, parts, isDotted, rfl, hfront, hbytes⟩ |
    ⟨front, before, back, after, isDotted, rfl, hfront, -, -, -⟩
  · have hlength :
        parts.flatten.length = 16 := by rw [← hbytes, octets.length_bytes]
    exact v4?_eq_none_of_grouped hfront (by omega) (by omega)
  · refine v4?_eq_none_of_grouped hfront ?_ fun _ => stops_cons_iff.mpr rfl
    rintro ⟨⟩

theorem whole?_eq_some_iff {α : Type}
    {read? : List Char → Option (α × List Char)} {text : String} {value : α} :
    whole? read? text = some value ↔ read? text.toList = some (value, []) := by
  unfold whole?
  split
  · rename_i found hfound
    simp [hfound]
  · rename_i hother
    refine iff_of_false (by simp) ?_
    exact hother value

end Literal

namespace IpAddress

theorem ofText?_eq_some_v4_iff {text : String} {octets : Octets 4} :
    ofText? text = some (.v4 octets) ↔
      Literal.v4? text.toList = some (octets, []) := by
  rw [ofText?, Literal.whole?_eq_some_iff, read?]
  cases hv4 : Literal.v4? text.toList with
  | some found => simp [Prod.ext_iff]
  | none => simp

theorem ofText?_eq_some_v6_iff {text : String} {octets : Octets 16} :
    ofText? text = some (.v6 octets) ↔
      Literal.v6? text.toList = some (octets, []) := by
  rw [ofText?, Literal.whole?_eq_some_iff, read?]
  constructor
  · intro h
    cases hv4 : Literal.v4? text.toList with
    | some found => simp [hv4] at h
    | none => simpa [hv4, Prod.ext_iff] using h
  · intro h
    rw [Literal.v4?_eq_none_of_v6? h, h]
    rfl

theorem ofText?_text (ip : IpAddress) : ofText? ip.text = some ip := by
  cases ip with
  | v4 octets =>
      have hread := v4?_v4Text octets (stops_nil _)
      rw [List.append_nil] at hread
      exact ofText?_eq_some_v4_iff.mpr hread
  | v6 octets =>
      have hread := v6?_v6Text octets ⟨stops_nil _, by rintro body ⟨⟩⟩
      rw [List.append_nil] at hread
      exact ofText?_eq_some_v6_iff.mpr hread

end IpAddress

namespace Host

open Literal (NumberForm Dotted Grouped)

variable {text digits front back rest host tail : List Char} {value : Nat}
  {values : List Nat} {parts : List Bytes} {isDotted : Bool} {port : UInt16}
  {octets : Octets 16} {resolver : Resolver}

theorem number?_append (h : NumberForm.octet.Spells digits value)
    (hrest : rest = [] ∨ ∃ body, rest = '.' :: body) :
    number? (digits ++ rest) = some (value, rest) := by
  have hstops (isPart : Char → Bool) (hmark : isPart '.' = false) :
      Stops isPart rest := by
    rcases hrest with rfl | ⟨body, rfl⟩
    · exact stops_nil isPart
    · exact stops_cons_iff.mpr hmark
  cases digits with
  | nil => exact absurd rfl h.ne_nil
  | cons digit digits =>
      by_cases hzero : digit = '0'
      · subst hzero
        -- Nothing follows a zero at the front, so that it is read as an octal
        -- number.
        obtain rfl : digits = [] := by
          by_contra hmore
          have hlong : 1 < ('0' :: digits).length :=
            Nat.succ_lt_succ (List.length_pos_iff.mpr hmore)
          exact h.leading rfl hlong rfl
        obtain rfl : 0 = value := h.value_eq
        have hoctal : (NumberForm.mk 8 none true UInt32.size).Spells ['0'] 0 :=
          ⟨by simp, List.forall_mem_singleton.mpr rfl, by rintro most ⟨⟩,
            rfl, by decide, by decide⟩
        have hread := NumberForm.read?_append hoctal (hstops _ rfl)
        rcases hrest with rfl | ⟨body, rfl⟩
        · exact hread
        · exact hread
      · have hdecimal : number? (digit :: (digits ++ rest)) =
            (NumberForm.mk 10 none true UInt32.size).read?
              (digit :: (digits ++ rest)) := by
          unfold number?
          split <;> simp_all
        rw [List.cons_append, hdecimal, ← List.cons_append]
        have hloose : (NumberForm.mk 10 none true UInt32.size).Spells
            (digit :: digits) value :=
          h.relax rfl rfl (by decide) rfl
        exact NumberForm.read?_append hloose (hstops _ rfl)

theorem loose?_append (h : Dotted true text values) (hne : values ≠ []) :
    loose? values.length text = some (values.map UInt8.ofNat) := by
  induction values generalizing text with
  | nil => exact absurd rfl hne
  | cons value others ih =>
      cases h with
      | @cons _ digits text _ _ hdigits htext =>
          have hvalue : value < 256 := hdigits.lt_bound
          show loose? (others.length + 1) (digits ++ text) = _
          by_cases hlast : others = []
          · subst hlast
            cases htext with
            | nil =>
                simp only [loose?, number?_append hdigits (.inl rfl)]
                rw [if_pos (by simpa using hvalue)]
                simp
          · obtain ⟨body, rfl, hbody⟩ := htext.exists_behind_dot hlast
            simp only [loose?, number?_append hdigits (.inr ⟨body, rfl⟩),
              ih hbody hlast]
            rw [if_pos hvalue]
            rfl

theorem peer?_of_v4 {text : String} {octets : Octets 4}
    (h : IpAddress.ofText? text = some (.v4 octets)) :
    peer? resolver text = some (.v4 octets defaultPort) := by
  obtain ⟨front, values, htext, hfront, hbytes, -⟩ :=
    Literal.exists_of_v4? (IpAddress.ofText?_eq_some_v4_iff.mp h)
  rw [List.append_nil] at htext
  have hcolon : ':' ∉ text.toList := by
    rw [htext]
    intro hmem
    exact absurd (hfront.isPart ':' hmem) (by decide)
  have hlength : values.length = 4 := by
    rw [← octets.length_bytes, hbytes, List.length_map]
  have hloose := loose?_append hfront (by
    rintro rfl
    cases hlength)
  rw [hlength, ← hbytes] at hloose
  rw [peer?, if_neg (by simpa using hcolon), withPort, numeric?, htext, hloose,
    Option.bind_some, Octets.ofBytes?_bytes]
  rfl

theorem splitPort?_append (host : List Char) (htail : ':' ∉ tail) :
    splitPort? (host ++ ':' :: tail) = some (host, tail) := by
  have hplain : ∀ character ∈ tail.reverse, decide (character ≠ ':') =
      true := by
    intro character hmem
    rw [decide_eq_true_iff]
    rintro rfl
    exact htail (List.mem_reverse.mp hmem)
  have hreverse : (host ++ ':' :: tail).reverse =
      tail.reverse ++ ':' :: host.reverse := by simp
  simp only [splitPort?, hreverse, List.dropWhile_append_of_pos hplain,
    List.takeWhile_append_of_pos hplain]
  simp

theorem colon_cut {front back : List Char} (htail : ':' ∉ tail)
    (hback : ':' ∉ back) (h : host ++ ':' :: tail = front ++ ':' :: back) :
    host = front ∧ tail = back := by
  have hsplit := congrArg splitPort? h
  rw [splitPort?_append host htail, splitPort?_append front hback] at hsplit
  simpa using hsplit

theorem exists_of_port? (h : port? text = some port) :
    ∃ digits value, (text = digits ∨ text = '+' :: digits) ∧
      NumberForm.port.Spells digits value ∧ port = UInt16.ofNat value := by
  simp only [port?] at h
  split at h
  · rename_i value hvalue
    cases h
    obtain ⟨digits, hsplit, hspells, -⟩ := NumberForm.exists_of_read? hvalue
    rw [List.append_nil] at hsplit
    refine ⟨digits, value, ?_, hspells, rfl⟩
    split at hsplit
    · exact .inr (congrArg _ hsplit)
    · exact .inl hsplit
  · cases h

theorem dot_not_mem_of_port? (h : port? text = some port) : '.' ∉ text := by
  obtain ⟨digits, value, htext, hdigits, -⟩ := exists_of_port? h
  intro hmem
  rcases htext with rfl | rfl
  · exact absurd (hdigits.isDigit '.' hmem) (by decide)
  · rcases List.mem_cons.mp hmem with hplus | hmem
    · cases hplus
    · exact absurd (hdigits.isDigit '.' hmem) (by decide)

theorem eq_zero_of_port? (h : port? text = some port)
    (hgroup : NumberForm.group.Spells text 0) :
    port = 0 := by
  obtain ⟨digits, value, htext, hdigits, rfl⟩ := exists_of_port? h
  rcases htext with rfl | rfl
  · have hle : value ≤ 0 := by
      rw [← hdigits.value_eq, ← hgroup.value_eq]
      show Text.digitsValue 10 text ≤ Text.digitsValue 16 text
      exact Text.digitsValue_le (by decide) _
    rw [Nat.le_zero.mp hle]
    rfl
  · exact absurd (hgroup.isDigit '+' List.mem_cons_self) (by decide)

theorem eq_zeros_of_shift {after last : Bytes}
    (h : 0 :: 0 :: after = after ++ last) :
    last = [0, 0] := by
  induction after with
  | nil => exact h.symm
  | cons byte after ih =>
      obtain ⟨rfl, hrest⟩ := List.cons.inj h
      exact ih hrest

theorem eq_zeros_of_filled_eq {before after last : Bytes}
    (hlast : last.length = 2) (hlength : before.length + after.length ≤ 12)
    (h : Literal.filled before after = Literal.filled before (after ++ last)) :
    last = [0, 0] := by
  obtain ⟨count, hcount⟩ : ∃ count, 16 - before.length - after.length =
    count + 2 :=
    ⟨14 - before.length - after.length, by omega⟩
  have hmore : 16 - before.length - (after ++ last).length = count := by
    rw [List.length_append]
    omega
  rw [Literal.filled, Literal.filled, hcount, hmore,
    ← List.replicate_append_replicate, List.append_assoc, List.append_assoc,
    List.append_assoc] at h
  exact eq_zeros_of_shift (List.append_cancel_left (List.append_cancel_left h))

theorem numeric?_ne
    (h : ∀ found, Literal.v6? host = some found → found.1 ≠ octets) :
    numeric? host port ≠ some (.v6 octets port 0) := by
  unfold numeric?
  split
  · simp
  · unfold v6?
    split
    · rename_i found rest hfound
      split
      · intro hsame
        simp only [Option.some_inj, SocketAddress.v6.injEq] at hsame
        exact h (found, rest) hfound hsame.1
      · simp
    · simp

theorem v6?_host_eq_none (h : Grouped true (host ++ ':' :: tail) parts isDotted)
    (hlength : parts.flatten.length = 16) (htail : ':' ∉ tail) :
    Literal.v6? host = none := by
  obtain ⟨others, front, piece, hcut, hfront, hshort, hpiece, -⟩ :=
    h.exists_last_of_whole hlength
  obtain ⟨rfl, rfl⟩ := colon_cut htail hpiece hcut
  have hnone := Literal.v6?_append_of_short hfront hshort
    ⟨stops_nil _, by rintro tail ⟨⟩⟩ (by rintro tail ⟨⟩)
  rwa [List.append_nil] at hnone

/-- Where there was a gap, it is one group longer, and the groups behind it are
shifted. -/
theorem v6?_shifted_ne {before others : List Bytes}
    (hfront : Grouped true front before false)
    (hback : Grouped true back others false)
    (hgroup : NumberForm.group.Spells digits value)
    (hlength : before.flatten.length + others.flatten.length ≤ 12)
    (hbytes : octets.bytes =
      Literal.filled before.flatten (others.flatten ++ Bytes.bigEndian 2 value))
    (hvalue : value ≠ 0) :
    ∀ found, Literal.v6? (front ++ ':' :: ':' :: back) = some found →
      found.1 ≠ octets := by
  rintro ⟨found, rest⟩ hfound rfl
  obtain ⟨shifted, hshifted⟩ : ∃ shifted : Octets 16,
      shifted.bytes = Literal.filled before.flatten others.flatten := by
    refine ⟨⟨Literal.filled before.flatten others.flatten, ?_⟩, rfl⟩
    rw [Literal.filled, List.length_append, List.length_append,
      List.length_replicate]
    omega
  have hgap := Literal.v6?_append_gap hfront hback
    ⟨stops_nil _, by rintro tail ⟨⟩⟩ (by omega) hshifted
  rw [List.append_nil] at hgap
  obtain ⟨rfl, -⟩ := Prod.mk.inj (Option.some_inj.mp (hgap.symm.trans hfound))
  rw [hshifted] at hbytes
  have hzeros :=
    eq_zeros_of_filled_eq (Bytes.length_bigEndian 2 value) hlength hbytes
  have hsmall : value < 256 ^ 2 := hgroup.lt_bound
  have hnumber := congrArg Bytes.toNat hzeros
  rw [Bytes.toNat_bigEndian, Nat.mod_eq_of_lt hsmall] at hnumber
  exact hvalue hnumber

theorem v6?_host_ne (h : Literal.v6? (host ++ ':' :: tail) = some (octets, []))
    (htail : ':' ∉ tail) (hport : port? tail = some port) (hne : port ≠ 0) :
    ∀ found, Literal.v6? host = some found → found.1 ≠ octets := by
  rcases Literal.exists_of_v6? h with
    ⟨text, parts, isDotted, htext, hparts, hbytes⟩ |
    ⟨front, before, back, after, isDotted, htext, hfront, hback,
      hlength, hbytes⟩
  · rw [List.append_nil] at htext
    subst htext
    rw [v6?_host_eq_none hparts (by rw [← hbytes, octets.length_bytes]) htail]
    rintro found ⟨⟩
  · by_cases hafter : after = []
    · -- Behind two colons there is no port.
      subst hafter
      cases hback with
      | nil =>
          have hcut : host ++ ':' :: tail = front ++ [':'] ++ ':' :: [] := by
            simpa using htext
          obtain ⟨-, rfl⟩ := colon_cut htail List.not_mem_nil hcut
          cases hport
    · obtain ⟨others, last, middle, piece, rfl, rfl, hmiddle, hpiece, hkind⟩ :=
        hback.exists_last hafter
      cases others with
      | nil =>
          -- One colon of the two is left.
          cases hmiddle with
          | nil =>
              have hcut : host ++ ':' :: tail =
                  front ++ [':'] ++ ':' :: piece := by
                simpa [Literal.lead] using htext
              obtain ⟨rfl, rfl⟩ := colon_cut htail hpiece hcut
              rw [Literal.v6?_append_of_short hfront (by omega)
                (Literal.ends_colon (stops_nil _)) (by rintro tail ⟨⟩)]
              rintro found ⟨⟩
      | cons other others =>
          have hcut : host ++ ':' :: tail =
              front ++ ':' :: ':' :: middle ++ ':' :: piece := by
            simpa [Literal.lead] using htext
          obtain ⟨rfl, rfl⟩ := colon_cut htail hpiece hcut
          rcases hkind with ⟨-, hdot⟩ | ⟨value, hvalue, rfl⟩
          · exact absurd hdot (dot_not_mem_of_port? hport)
          · rw [List.flatten_append, List.flatten_singleton] at hbytes hlength
            rw [List.length_append, Bytes.length_bigEndian] at hlength
            refine v6?_shifted_ne hfront hmiddle hvalue (by omega) hbytes ?_
            rintro rfl
            exact hne (eq_zero_of_port? hport hvalue)

theorem port_of_numeric? {address : SocketAddress}
    (h : numeric? host port = some address) : address.port = port := by
  unfold numeric? v6? at h
  split at h
  · cases h
    rfl
  · split at h
    · split at h
      · cases h
        rfl
      · cases h
    · cases h

theorem ofText?_eq_none_of_v6? {text : String}
    (h : Literal.v6? text.toList = some (octets, rest)) :
    SocketAddress.ofText? text = none := by
  have hbracket : Literal.expect? '[' text.toList = none := by
    rw [Option.eq_none_iff_forall_ne_some]
    intro body hbody
    have htext := Literal.expect?_eq_some_iff.mp hbody
    have hends : Literal.Ends ('[' :: body) :=
      ⟨stops_cons_iff.mpr rfl, by rintro tail ⟨⟩⟩
    have hnone := Literal.v6?_append_of_short (.nil true) (by decide) hends
      (by rintro tail ⟨⟩)
    rw [htext] at h
    cases hnone.symm.trans h
  rw [SocketAddress.ofText?, Literal.whole?, SocketAddress.read?,
    SocketAddress.readV4?, SocketAddress.readV6?, Literal.v4?_eq_none_of_v6? h,
    hbracket]
  rfl

theorem colon_mem_host
    (h : Literal.v6? (host ++ ':' :: tail) = some (octets, rest))
    (htail : ':' ∉ tail) : ':' ∈ host := by
  have htwo := Literal.two_le_count_of_v6? h
  rw [List.count_append, List.count_cons_self,
    List.count_eq_zero.mpr htail] at htwo
  exact List.count_pos_iff.mp (by omega)

theorem peer?_ne_of_v6 {text : String}
    (h : IpAddress.ofText? text = some (.v6 octets)) :
    peer? resolver text ≠ some (.v6 octets defaultPort 0) := by
  have hread := IpAddress.ofText?_eq_some_v6_iff.mp h
  have hcolon := Literal.colon_mem_of_v6? hread
  obtain ⟨back, front, hreverse, hback⟩ :=
    List.eq_append_cons_of_mem (List.mem_reverse.mpr hcolon)
  have htext : text.toList = front.reverse ++ ':' :: back.reverse := by
    rw [← List.reverse_reverse text.toList, hreverse]
    simp
  have htail : ':' ∉ back.reverse :=
    fun hmem => hback (List.mem_reverse.mp hmem)
  rw [peer?, if_pos (List.contains_iff_mem.mpr hcolon), resolve,
    ofText?_eq_none_of_v6? hread, htext, splitPort?_append _ htail]
  rw [htext] at hread
  cases hport : port? back.reverse with
  | none => simp [hport]
  | some port =>
      cases hnumeric : numeric? front.reverse port with
      | none =>
          -- Nothing is left to look up but a name with a colon.
          have hnobody := resolver.lookUp_of_colon
            (colon_mem_host hread htail) port
          simp [hport, withPort, hnumeric, hnobody]
      | some address =>
          intro hpeer
          obtain rfl : address = .v6 octets defaultPort 0 := by
            simpa [hport, withPort, hnumeric] using hpeer
          obtain rfl : defaultPort = port := port_of_numeric? hnumeric
          have hother := v6?_host_ne hread htail hport (by decide)
          exact numeric?_ne hother hnumeric

theorem peer?_text (resolver : Resolver) (address : SocketAddress) :
    peer? resolver address.text = some address := by
  have hcolon : ':' ∈ address.text.toList := by
    cases address with
    | v4 octets port => simp [SocketAddress.toList_text_v4]
    | v6 octets port scope => simp [SocketAddress.toList_text_v6]
  rw [peer?, if_pos (List.contains_iff_mem.mpr hcolon), resolve,
    SocketAddress.ofText?_text]
  rfl

/-- Every address with its port is understood as people see it.  An address
without a port gets the default one just when it is an IPv4 address. -/
theorem peer_understood_iff (resolver : Resolver) (address : SocketAddress)
    (ip : IpAddress) (text : String) :
    peer? resolver address.text = some address ∧
      IpAddress.ofText? ip.text = some ip ∧
      (IpAddress.ofText? text = some ip →
        (peer? resolver text = some (.ofIp ip defaultPort) ↔
          ∃ octets, ip = .v4 octets)) := by
  refine ⟨peer?_text resolver address, IpAddress.ofText?_text ip, ?_⟩
  intro hip
  cases ip with
  | v4 octets => exact iff_of_true (peer?_of_v4 hip) ⟨octets, rfl⟩
  | v6 octets =>
      refine iff_of_false (peer?_ne_of_v6 hip) ?_
      rintro ⟨octets, ⟨⟩⟩

theorem loopback_understood :
    (IpAddress.ofText? "127.0.0.1" = some (.v4 ⟨[127, 0, 0, 1], rfl⟩) ∧
      peer? .none "127.0.0.1" = some (.v4 ⟨[127, 0, 0, 1], rfl⟩ defaultPort)) ∧
    IpAddress.ofText? "::1" = some (.v6 (.ofNat 16 1)) ∧
      peer? .none "::1" ≠ some (.v6 (.ofNat 16 1) defaultPort 0) := by
  have hv4 : IpAddress.ofText? "127.0.0.1" =
      some (.v4 ⟨[127, 0, 0, 1], rfl⟩) := by decide
  have hv6 : IpAddress.ofText? "::1" = some (.v6 (.ofNat 16 1)) := by decide
  let loopback : SocketAddress := .v4 ⟨[127, 0, 0, 1], rfl⟩ defaultPort
  obtain ⟨-, -, hplain⟩ :=
    peer_understood_iff .none loopback (.v4 ⟨[127, 0, 0, 1], rfl⟩) "127.0.0.1"
  obtain ⟨-, -, hcolons⟩ :=
    peer_understood_iff .none loopback (.v6 (.ofNat 16 1)) "::1"
  refine ⟨⟨hv4, (hplain hv4).mpr ⟨_, rfl⟩⟩, hv6, fun hpeer => ?_⟩
  obtain ⟨octets, hoctets⟩ := (hcolons hv6).mp hpeer
  cases hoctets

/-- The address fe80::1:80 without a port is another host, at port 80. -/
theorem linkLocal_misread :
    IpAddress.ofText? "fe80::1:80" =
        some (.v6 ⟨[0xfe, 0x80, 0, 0, 0, 0, 0, 0, 0, 0, 0, 0, 0, 1, 0, 0x80],
          rfl⟩) ∧
      peer? .none "fe80::1:80" =
        some (.v6 ⟨[0xfe, 0x80, 0, 0, 0, 0, 0, 0, 0, 0, 0, 0, 0, 0, 0, 1],
          rfl⟩ 80 0) := by
  decide

end Host

end ObjectRelay

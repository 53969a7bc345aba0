import ObjectRelay.Proofs.Address.Literal
import ObjectRelay.Proofs.Bytes.BigEndian

namespace ObjectRelay

open Text (Stops stops_nil stops_cons_iff)

namespace Literal

variable {text rest : List Char} {values : List Nat} {parts : List Bytes}
  {isDotted : Bool}

theorem Dotted.behind_dot (h : Dotted true text values) (hne : values ≠ []) :
    Dotted false ('.' :: text) values := by
  cases h with
  | nil => exact absurd rfl hne
  | cons _ hdigits htext => exact .cons false hdigits htext

theorem Grouped.behind_colon (h : Grouped true text parts isDotted)
    (hne : parts ≠ []) :
    Grouped false (':' :: text) parts isDotted := by
  cases h with
  | nil => exact absurd rfl hne
  | dotted _ htext hbytes => exact .dotted false htext hbytes
  | cons _ hdigits htext => exact .cons false hdigits htext

theorem spells_octet {value : Nat} (h : value < 256) :
    NumberForm.octet.Spells (Nat.toDigits 10 value) value := by
  refine NumberForm.octet.spells_toDigits (by decide) (by decide) ?_ h
  rintro most ⟨⟩
  decide

theorem spells_group {value : Nat} (h : value < 65536) :
    NumberForm.group.Spells (Nat.toDigits 16 value) value := by
  refine NumberForm.group.spells_toDigits (by decide) (by decide) ?_ h
  rintro most ⟨⟩
  decide

theorem dotted_intercalate (hvalues : ∀ value ∈ values, value < 256) :
    Dotted true (['.'].intercalate (values.map (Nat.toDigits 10))) values := by
  induction values with
  | nil => exact .nil true
  | cons value others ih =>
      have hvalue := spells_octet (hvalues value List.mem_cons_self)
      have hothers :=
        ih fun other hmem => hvalues other (List.mem_cons_of_mem value hmem)
      cases others with
      | nil =>
          rw [List.map_singleton, List.intercalate_singleton]
          simpa [lead] using Dotted.cons true hvalue (.nil false)
      | cons other others =>
          rw [List.map_cons, List.map_cons, List.intercalate_cons_cons,
            List.append_assoc]
          exact Dotted.cons true hvalue (hothers.behind_dot (by simp))

theorem grouped_intercalate (hvalues : ∀ value ∈ values, value < 65536) :
    Grouped true ([':'].intercalate (values.map (Nat.toDigits 16)))
      (values.map (Bytes.bigEndian 2)) false := by
  induction values with
  | nil => exact .nil true
  | cons value others ih =>
      have hvalue := spells_group (hvalues value List.mem_cons_self)
      have hothers :=
        ih fun other hmem => hvalues other (List.mem_cons_of_mem value hmem)
      cases others with
      | nil =>
          rw [List.map_singleton, List.intercalate_singleton]
          simpa [lead] using Grouped.cons true hvalue (.nil false)
      | cons other others =>
          rw [List.map_cons, List.map_cons, List.intercalate_cons_cons,
            List.append_assoc]
          exact Grouped.cons true hvalue (hothers.behind_colon (by simp))

end Literal

namespace IpAddress

open Literal (Dotted Grouped Ends)

theorem dotted_v4Text (octets : Octets 4) :
    Dotted true (v4Text octets).toList (octets.bytes.map UInt8.toNat) := by
  have hsmall : ∀ value ∈ octets.bytes.map UInt8.toNat, value < 256 := by
    intro value hmem
    obtain ⟨byte, -, rfl⟩ := List.mem_map.mp hmem
    exact byte.toNat_lt
  have hbytes := Literal.dotted_intercalate hsmall
  rw [v4Text, String.toList_intercalate]
  simpa [Nat.toString_eq_ofList_toDigits, Function.comp_def] using hbytes

theorem grouped_segmentsText {segments : List Nat}
    (h : ∀ segment ∈ segments, segment < 65536) :
    Grouped true (segmentsText segments).toList
      (segments.map (Bytes.bigEndian 2)) false := by
  rw [segmentsText, String.toList_intercalate]
  simpa [Function.comp_def] using Literal.grouped_intercalate h

theorem flatten_chunks (count : Nat) (bytes : Bytes) :
    ((List.range count).map fun index =>
      (bytes.drop (2 * index)).take 2).flatten =
      bytes.take (2 * count) := by
  induction count with
  | zero => rfl
  | succ count ih =>
      rw [List.range_succ, List.map_append, List.flatten_append, ih,
        Nat.mul_succ, List.take_add]
      simp

theorem length_segments (octets : Octets 16) :
    (segments octets).length = 8 := by
  simp [segments]

theorem flatten_segments (octets : Octets 16) :
    ((segments octets).map (Bytes.bigEndian 2)).flatten = octets.bytes := by
  have hchunks : (segments octets).map (Bytes.bigEndian 2) =
      (List.range 8).map fun index =>
        (octets.bytes.drop (2 * index)).take 2 := by
    rw [segments, List.map_map]
    refine List.map_congr_left fun index hindex => ?_
    have hlength : ((octets.bytes.drop (2 * index)).take 2).length = 2 := by
      have hsmall := List.mem_range.mp hindex
      rw [List.length_take, List.length_drop, octets.length_bytes]
      omega
    have hback := Bytes.bigEndian_toNat ((octets.bytes.drop (2 * index)).take 2)
    rwa [hlength] at hback
  rw [hchunks, flatten_chunks,
    List.take_of_length_le (Nat.le_of_eq octets.length_bytes)]

theorem lt_of_mem_segments {octets : Octets 16} {segment : Nat}
    (h : segment ∈ segments octets) : segment < 65536 := by
  obtain ⟨index, -, rfl⟩ := List.mem_map.mp h
  have hlength : ((octets.bytes.drop (2 * index)).take 2).length ≤ 2 := by
    rw [List.length_take]
    exact Nat.min_le_left 2 _
  exact Nat.lt_of_lt_of_le (Bytes.toNat_lt _)
    (Nat.pow_le_pow_right (by decide) hlength)

theorem flatten_zeros (count : Nat) :
    ((List.replicate count 0).map (Bytes.bigEndian 2)).flatten =
      List.replicate (2 * count) 0 := by
  induction count with
  | zero => rfl
  | succ count ih =>
      rw [List.replicate_succ, List.map_cons, List.flatten_cons, ih]
      rfl

theorem length_flatten_segments (segments : List Nat) :
    (segments.map (Bytes.bigEndian 2)).flatten.length =
      2 * segments.length := by
  induction segments with
  | nil => rfl
  | cons segment segments ih =>
      rw [List.map_cons, List.flatten_cons, List.length_append, ih,
        Bytes.length_bigEndian, List.length_cons]
      omega

theorem drop_eq_zeroRun (segments : List Nat) (start : Nat) :
    segments.drop start = List.replicate (zeroRun segments start) 0 ++
      segments.drop (start + zeroRun segments start) := by
  have hzeros : (segments.drop start).takeWhile (· = 0) =
      List.replicate (zeroRun segments start) 0 := by
    refine List.eq_replicate_iff.mpr ⟨rfl, fun segment hmem => ?_⟩
    simpa using List.mem_takeWhile_imp hmem
  have hsplit :=
    List.takeWhile_append_dropWhile (p := (· = 0)) (l := segments.drop start)
  rw [hzeros] at hsplit
  have hrest := congrArg (List.drop (zeroRun segments start)) hsplit
  rw [List.drop_left' List.length_replicate, List.drop_drop] at hrest
  rw [← hrest, hsplit]

variable {octets : Octets 16} {rest : List Char}

theorem v6?_segmentsText (octets : Octets 16) (hrest : Ends rest) :
    Literal.v6? ((segmentsText (segments octets)).toList ++ rest) =
      some (octets, rest) :=
  Literal.v6?_append (grouped_segmentsText fun _ => lt_of_mem_segments)
    (flatten_segments octets).symm hrest

theorem v6?_gapText (octets : Octets 16) {start count : Nat}
    (hcount : zeroRun (segments octets) start = count) (hsome : 0 < count)
    (hrest : Ends rest) :
    Literal.v6? ((segmentsText ((segments octets).take start)).toList ++
      ':' :: ':' :: ((segmentsText
        ((segments octets).drop (start + count))).toList ++ rest)) =
      some (octets, rest) := by
  have hsplit := drop_eq_zeroRun (segments octets) start
  rw [hcount] at hsplit
  have hlengths := congrArg List.length hsplit
  simp only [List.length_append, List.length_replicate, List.length_drop,
    length_segments] at hlengths
  have hwhole : segments octets = (segments octets).take start ++
      (List.replicate count 0 ++ (segments octets).drop (start + count)) := by
    rw [← hsplit, List.take_append_drop]
  refine Literal.v6?_append_gap
    (grouped_segmentsText fun _ hmem =>
      lt_of_mem_segments (List.mem_of_mem_take hmem))
    (grouped_segmentsText fun _ hmem =>
      lt_of_mem_segments (List.mem_of_mem_drop hmem)) hrest ?_ ?_
  · simp only [length_flatten_segments, List.length_take, List.length_drop,
      length_segments]
    omega
  · have hzeros : 16 - 2 * min start 8 - 2 * (8 - (start + count)) =
        2 * count := by omega
    rw [Literal.filled, length_flatten_segments, length_flatten_segments,
      List.length_take, List.length_drop, length_segments, hzeros,
      ← flatten_segments octets]
    conv_lhs => rw [hwhole]
    rw [List.map_append, List.map_append, List.flatten_append,
      List.flatten_append, flatten_zeros, List.append_assoc]

theorem v6?_mappedText (inner : Octets 4) (hrest : Ends rest) :
    Literal.v6? (("::ffff:" ++ v4Text inner).toList ++ rest) =
      some (mapped inner, rest) := by
  have hbytes : inner.bytes =
      (inner.bytes.map UInt8.toNat).map UInt8.ofNat := by
    simp [Function.comp_def]
  have hdotted :=
    (Grouped.dotted true (dotted_v4Text inner) hbytes).behind_colon (by simp)
  have hlead : (65535 : Nat) < 65536 := by decide
  have hback := Grouped.cons true (Literal.spells_group hlead) hdotted
  have hfilled : (mapped inner).bytes =
      Literal.filled [] [Bytes.bigEndian 2 65535, inner.bytes].flatten := by
    simp [Literal.filled, mapped, mappedLead, inner.length_bytes]
  have hread := Literal.v6?_append_gap (.nil true) hback hrest
    (by simp [inner.length_bytes]) hfilled
  rw [String.toList_append, List.append_assoc]
  exact hread

theorem v6?_v6Text (octets : Octets 16) (hrest : Ends rest) :
    Literal.v6? ((v6Text octets).toList ++ rest) = some (octets, rest) := by
  unfold v6Text
  split
  · rename_i inner hinner
    rw [v6?_mappedText inner hrest, mapped_of_unmapped? hinner]
  · simp only
    split
    · rename_i start hstart
      split
      · exact v6?_segmentsText octets hrest
      · rename_i hlong
        have hcount := List.find?_some hstart
        have hgap :=
          v6?_gapText octets (of_decide_eq_true hcount) (by omega) hrest
        simpa using hgap
    · exact v6?_segmentsText octets hrest

theorem v4?_v4Text (octets : Octets 4) (hrest : Stops (Text.isDigit 10) rest) :
    Literal.v4? ((v4Text octets).toList ++ rest) = some (octets, rest) :=
  Literal.v4?_append (dotted_v4Text octets) (by simp [Function.comp_def]) hrest

end IpAddress

namespace SocketAddress

theorem port?_toDigits {rest : List Char} (port : UInt16)
    (hrest : Stops (Text.isDigit 10) rest) :
    Literal.port? (':' :: (Nat.toDigits 10 port.toNat ++ rest)) =
      some (port, rest) := by
  have hspells : Literal.NumberForm.port.Spells (Nat.toDigits 10 port.toNat)
      port.toNat := by
    refine Literal.NumberForm.port.spells_toDigits (by decide) (by decide) ?_
      port.toNat_lt
    rintro most ⟨⟩
  have hread := Literal.NumberForm.read?_append hspells hrest
  simp [Literal.port?, Literal.expect?, hread]

theorem scope_toDigits {rest : List Char} (scope : UInt32)
    (hrest : Stops (Text.isDigit 10) rest) :
    Literal.scope ('%' :: (Nat.toDigits 10 scope.toNat ++ rest)) =
      (scope, rest) := by
  have hspells : Literal.NumberForm.scope.Spells (Nat.toDigits 10 scope.toNat)
      scope.toNat := by
    refine Literal.NumberForm.scope.spells_toDigits (by decide) (by decide) ?_
      scope.toNat_lt
    rintro most ⟨⟩
  have hread := Literal.NumberForm.read?_append hspells hrest
  simp [Literal.scope, Literal.expect?, hread]

/-- What stands between the address and the bracket behind it. -/
def scopeText (scope : UInt32) : List Char :=
  if scope = 0 then [] else '%' :: Nat.toDigits 10 scope.toNat

theorem ends_scopeText (scope : UInt32) (rest : List Char) :
    Literal.Ends (scopeText scope ++ ']' :: rest) := by
  unfold scopeText
  split
  · exact ⟨stops_cons_iff.mpr rfl, by rintro body ⟨⟩⟩
  · exact ⟨stops_cons_iff.mpr rfl, by rintro body ⟨⟩⟩

theorem scope_scopeText (scope : UInt32) (rest : List Char) :
    Literal.scope (scopeText scope ++ ']' :: rest) = (scope, ']' :: rest) := by
  unfold scopeText
  split
  · rename_i hzero
    rw [hzero]
    rfl
  · exact scope_toDigits scope (stops_cons_iff.mpr rfl)

theorem toList_text_v6 (octets : Octets 16) (port : UInt16) (scope : UInt32) :
    (v6 octets port scope).text.toList =
      '[' :: ((IpAddress.v6Text octets).toList ++
        (scopeText scope ++ ']' :: ':' :: Nat.toDigits 10 port.toNat)) := by
  simp only [text, scopeText]
  split
  · change ("[" ++ IpAddress.v6Text octets ++ "]:" ++
      toString port.toNat).toList = _
    simp
  · change ("[" ++ IpAddress.v6Text octets ++ "%" ++
      toString scope.toNat ++ "]:" ++ toString port.toNat).toList = _
    simp

theorem toList_text_v4 (octets : Octets 4) (port : UInt16) :
    (v4 octets port).text.toList =
      (IpAddress.v4Text octets).toList ++ ':' ::
        Nat.toDigits 10 port.toNat := by
  change (IpAddress.v4Text octets ++ ":" ++ toString port.toNat).toList = _
  simp

theorem ofText?_text (address : SocketAddress) :
    ofText? address.text = some address := by
  have hread : read? address.text.toList = some (address, []) := by
    cases address with
    | v4 octets port =>
        have hport := port?_toDigits port (stops_nil _)
        have hstops :
            Stops (Text.isDigit 10) (':' :: Nat.toDigits 10 port.toNat) :=
          stops_cons_iff.mpr rfl
        have hoctets := IpAddress.v4?_v4Text octets hstops
        rw [List.append_nil] at hport
        simp [read?, readV4?, toList_text_v4, hoctets, hport]
    | v6 octets port scope =>
        have hport := port?_toDigits port (stops_nil _)
        rw [List.append_nil] at hport
        have hoctets := IpAddress.v6?_v6Text octets
          (ends_scopeText scope (':' :: Nat.toDigits 10 port.toNat))
        have hscope := scope_scopeText scope (':' :: Nat.toDigits 10 port.toNat)
        have hnot : Literal.v4? (v6 octets port scope).text.toList = none := by
          rw [toList_text_v6]
          exact Literal.v4?_eq_none_of_stops (stops_cons_iff.mpr rfl)
        simp only [read?, readV4?, hnot]
        simp [readV6?, toList_text_v6, Literal.expect?, hoctets, hscope, hport]
  rw [ofText?, Literal.whole?, hread]

end SocketAddress

end ObjectRelay

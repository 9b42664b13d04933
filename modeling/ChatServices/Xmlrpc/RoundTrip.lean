import ChatServices.Xmlrpc.Strings

/-! Strings that are encoded, cut out of their values and decoded again: each byte above 127 comes
back with the semicolon of its number behind it, and everything else as it was. -/
namespace ChatServices.Xmlrpc
open ChatServices.Lib ChatServices.Lib.InPlace ChatServices.Lib.Halting ChatServices.Text
open ChatServices.ChanServ (natArg)

/-! ### Every buffer is read to its end -/

section ending
variable {s s' : Cursor Char}

end ending

/-! ### Decoding what was encoded -/

section decoding
variable {tail : Memory} {c : Char}

theorem decode_plain (hnul : c ≠ nul) (hamp : c ≠ '&') (tail : Memory) :
    Rewrites decodeStep [c] [c] tail := by
  apply Rewrites.once (by simp)
  intro front write _
  rw [List.cons_append, List.nil_append, decodeStep]
  simp [hnul, hamp]

theorem decode_named {name : CString} (hname : (name, c) ∈
      [("gt;".toList, '>'), ("lt;".toList, '<'), ("quot;".toList, '"'), ("amp;".toList, '&')])
    (tail : Memory) : Rewrites decodeStep ('&' :: name) [c] tail := by
  apply Rewrites.once (by simp)
  intro front write _
  rw [List.cons_append, decodeStep]
  simp only [charAt_front, stringAt_next]
  have hnul : nul ∉ name := by
    simp only [List.mem_cons, Prod.mk.injEq, List.not_mem_nil, or_false] at hname
    obtain ⟨rfl, -⟩ | ⟨rfl, -⟩ | ⟨rfl, -⟩ | ⟨rfl, -⟩ := hname <;> decide
  rw [cstr_append hnul]
  simp only [List.mem_cons, Prod.mk.injEq, List.not_mem_nil, or_false] at hname
  obtain ⟨rfl, rfl⟩ | ⟨rfl, rfl⟩ | ⟨rfl, rfl⟩ | ⟨rfl, rfl⟩ := hname <;> rfl

theorem atoi_natArg {n : Nat} (hn : n < 2 ^ 31) (rest : CString) :
    Cidr.atoi (natArg n ++ ';' :: rest) = n := by
  have hstop : ∀ d ∈ (';' :: rest).head?, Match.isDigit d = false := by
    intro d hd
    obtain rfl := Option.some.inj hd
    rfl
  have hmin : min (n : Int) (2 ^ 63 - 1) = n := by omega
  rw [Cidr.atoi, ChanServ.strtol_natArg n hstop, hmin, BitVec.toInt_ofInt]
  exact Int.bmod_eq_of_le (by omega) (by omega)

theorem decode_number (hbyte : c.toNat < 256) (tail : Memory) :
    Rewrites decodeStep ("&#".toList ++ natArg c.toNat) [c] (';' :: tail) := by
  apply Rewrites.once (by simp)
  intro front write hwrite
  have hdigits : ∀ d ∈ natArg c.toNat, d ≠ nul ∧ d ≠ ';' := by
    intro d hd
    have hdigit := ChanServ.isDigit_natArg hd
    constructor <;> rintro rfl <;> exact absurd hdigit (by decide)
  have hnul : nul ∉ natArg c.toNat := fun h => (hdigits nul h).1 rfl
  have hbehind : cstr (natArg c.toNat ++ ';' :: tail) = natArg c.toNat ++ ';' :: cstr tail := by
    rw [cstr_append hnul, cstr_cons (by decide)]
  have hmem : front ++ ("&#".toList ++ natArg c.toNat ++ ';' :: tail) =
      front ++ '&' :: '#' :: (natArg c.toNat ++ ';' :: tail) := by simp
  have hname : stringAt (front ++ '&' :: '#' :: (natArg c.toNat ++ ';' :: tail)) (front.length + 1) =
      '#' :: (natArg c.toNat ++ ';' :: cstr tail) := by
    rw [stringAt_next, cstr_cons (by decide), hbehind]
  have hsharp : charAt (front ++ '&' :: '#' :: (natArg c.toNat ++ ';' :: tail)) (front.length + 1) =
      '#' := by
    have hfront := charAt_front (front ++ ['&']) '#' (natArg c.toNat ++ ';' :: tail)
    rw [List.append_assoc, List.length_append] at hfront
    exact hfront
  have hnumber : stringAt (front ++ '&' :: '#' :: (natArg c.toNat ++ ';' :: tail))
      (front.length + 1 + 1) = natArg c.toNat ++ ';' :: cstr tail := by
    rw [← hbehind]
    exact stringAt_skip front ['&', '#'] _
  have hbyteOf : byteOf (Cidr.atoi (natArg c.toNat ++ ';' :: cstr tail)) = c := by
    have hsmall : ((c.toNat : Int) % 256).toNat = c.toNat := by omega
    rw [atoi_natArg (by omega), byteOf, hsmall, Char.ofNat_toNat]
  have hstop : (natArg c.toNat ++ ';' :: cstr tail).takeWhile (· ≠ ';') = natArg c.toNat := by
    have hall : ∀ d ∈ natArg c.toNat, decide (d ≠ ';') = true := fun d hd => by
      simpa using (hdigits d hd).2
    rw [List.takeWhile_append_of_pos hall]
    simp
  rw [hmem, decodeStep]
  simp only [charAt_front, hname, hsharp, hnumber, hbyteOf, stringAt_set (Nat.lt_add_right 1
    (Nat.lt_add_one_of_le hwrite)), hstop]
  have hlen : front.length + 1 + 1 + (natArg c.toNat).length =
      front.length + ("&#".toList ++ natArg c.toNat).length := by
    rw [List.length_append]
    have htwo : "&#".toList.length = 2 := rfl
    omega
  rw [hlen]
  rfl

end decoding

def transportedChar (c : Char) : CString := if c.toNat > 127 then [c, ';'] else [c]

def ByteString.encoded (s : ByteString) : CString := xmlrpcAppendCharEncode [] s.text

def ByteString.transported (s : ByteString) : CString := s.text.flatMap transportedChar

section strings
variable (s : ByteString)

theorem decode_char {c : Char} (hnul : c ≠ nul) (hbyte : c.toNat < 256) (tail : Memory) :
    Rewrites decodeStep (encodeChar c) (transportedChar c) tail := by
  rw [encodeChar, transportedChar]
  by_cases hhigh : c.toNat > 127
  · rw [if_pos hhigh, if_pos hhigh]
    have hnumber := decode_number hbyte tail
    exact hnumber.append (decode_plain (by decide) (by decide) tail)
  rw [if_neg hhigh, if_neg hhigh]
  by_cases hamp : c = '&'
  · subst hamp
    exact decode_named (by decide) tail
  by_cases hlt : c = '<'
  · subst hlt
    exact decode_named (by decide) tail
  by_cases hgt : c = '>'
  · subst hgt
    exact decode_named (by decide) tail
  by_cases hquot : c = '"'
  · subst hquot
    exact decode_named (by decide) tail
  rw [if_neg hamp, if_neg hlt, if_neg hgt, if_neg hquot]
  exact decode_plain hnul hamp tail

theorem ByteString.nul_not_mem : nul ∉ s.text := fun h => (s.bytes nul h).1 rfl

theorem ByteString.encoded_eq : s.encoded = s.text.flatMap encodeChar := by
  rw [ByteString.encoded, xmlrpcAppendCharEncode, (cstr_eq_self_iff s.text).mpr s.nul_not_mem]
  rfl

theorem decode_encoded (tail : Memory) : Rewrites decodeStep s.encoded s.transported tail := by
  rw [s.encoded_eq]
  exact Rewrites.flatMap (fun c hc tail => decode_char (s.bytes c hc).1 (s.bytes c hc).2 tail) tail

theorem decodeString_encoded (front after : Memory) :
    ∃ gap, s.transported.length + gap.length = s.encoded.length ∧
      xmlrpcDecodeString (front ++ (s.encoded ++ nul :: after)) front.length =
        front ++ (s.transported ++ nul :: (gap ++ after)) := by
  obtain ⟨gap₁, hlen₁, hrun⟩ := decode_encoded s (nul :: after) front []
  obtain ⟨gap, hlen, hset⟩ := set_placed (front ++ s.transported) gap₁ (List.cons_ne_nil nul []) after nul
  have hstop : decodeStep (placed (front ++ s.transported) gap₁ (nul :: after)) =
      .inl (front ++ (s.transported ++ nul :: (gap ++ after))) := by
    have hend : charAt (front ++ s.transported ++ gap₁ ++ nul :: after)
        ((front ++ s.transported).length + gap₁.length) = nul := by
      rw [← List.length_append, charAt_front]
    rw [placed, decodeStep]
    dsimp only
    rw [if_pos hend]
    simpa using hset
  obtain ⟨m, hm, htakes⟩ := hrun 1 _ (Takes.stop hstop)
  refine ⟨gap, by simpa using (by simp at hlen hlen₁; omega), ?_⟩
  have hplace : placed front [] (s.encoded ++ nul :: after) =
      ⟨front ++ (s.encoded ++ nul :: after), front.length, front.length⟩ := by simp [placed]
  rw [hplace] at htakes
  have hlimit : m ≤ (front ++ (s.encoded ++ nul :: after)).length + 1 := by
    simp only [List.length_append, List.length_cons]
    omega
  rw [xmlrpcDecodeString, htakes, if_pos hlimit]
  rfl

theorem length_transported (text : CString) : (text.flatMap transportedChar).length =
    text.length + text.countP fun c => c.toNat > 127 := by
  induction text with
  | nil => rfl
  | cons c text ih =>
    rw [List.flatMap_cons, List.length_append, ih, List.countP_cons, transportedChar]
    by_cases hhigh : c.toNat > 127
    · simp [hhigh]
      omega
    · simp [hhigh]
      omega

theorem transported_eq_iff : s.transported = s.text ↔ ∀ c ∈ s.text, c.toNat ≤ 127 := by
  rw [ByteString.transported]
  constructor
  · intro hsame c hc
    have hlen := length_transported s.text
    rw [hsame] at hlen
    have hnone : (s.text.countP fun c => c.toNat > 127) = 0 := by omega
    have hlow := List.countP_eq_zero.mp hnone c hc
    simpa using hlow
  · intro hlow
    have hone : ∀ c ∈ s.text, transportedChar c = [c] := by
      intro c hc
      have hle := hlow c hc
      rw [transportedChar, if_neg (by omega)]
    rw [List.flatMap_congr hone]
    simp

theorem encodeChar_clean {c : Char} (hnul : c ≠ nul) : ∀ d ∈ encodeChar c, d ≠ nul ∧ d ≠ '<' := by
  intro d hd
  have hfixed : ∀ w : CString, (w.all fun d => d ≠ nul && d ≠ '<') = true → d ∈ w →
      d ≠ nul ∧ d ≠ '<' := by
    intro w hall hd
    simpa using List.all_eq_true.mp hall d hd
  rw [encodeChar] at hd
  split_ifs at hd with hhigh hamp hlt hgt hquot
  · have hdigit : d ∈ natArg c.toNat → d ≠ nul ∧ d ≠ '<' := by
      intro hd
      have hdigit := ChanServ.isDigit_natArg hd
      constructor <;> rintro rfl <;> exact absurd hdigit (by decide)
    have hmarks : d = '&' ∨ d = '#' ∨ d ∈ natArg c.toNat ∨ d = ';' := by simpa [or_assoc] using hd
    obtain rfl | rfl | hd | rfl := hmarks
    · decide
    · decide
    · exact hdigit hd
    · decide
  · exact hfixed _ (by decide) hd
  · exact hfixed _ (by decide) hd
  · exact hfixed _ (by decide) hd
  · exact hfixed _ (by decide) hd
  · obtain rfl := List.mem_singleton.mp hd
    exact ⟨hnul, hlt⟩

theorem encoded_clean : nul ∉ s.encoded ∧ '<' ∉ s.encoded := by
  have hclean : ∀ d ∈ s.encoded, d ≠ nul ∧ d ≠ '<' := by
    intro d hd
    rw [s.encoded_eq, List.mem_flatMap] at hd
    obtain ⟨c, hc, hd⟩ := hd
    exact encodeChar_clean (s.bytes c hc).1 d hd
  exact ⟨fun h => (hclean nul h).1 rfl, fun h => (hclean '<' h).2 rfl⟩

theorem transported_clean : nul ∉ s.transported := by
  intro h
  rw [ByteString.transported, List.mem_flatMap] at h
  obtain ⟨c, hc, hin⟩ := h
  have hnul := (s.bytes c hc).1
  rw [transportedChar] at hin
  split_ifs at hin
  · have hcases : nul = c ∨ nul = ';' := by simpa using hin
    cases hcases with
    | inl hsame => exact hnul hsame.symm
    | inr hsemi => exact absurd hsemi (by decide)
  · exact hnul (List.mem_singleton.mp hin).symm

end strings

/-! ### Splitting a buffer of strings -/

section splitting
variable {front rest : Memory} {w : CString} {c : Char}

def closing : CString := "/string></value>".toList

def opened : Memory := "<value><string".toList ++ [nul]

theorem wrapped_eq (w : CString) : wrapped w =
    "<value>".toList ++ '<' :: ("string".toList ++ '>' :: (w ++ '<' :: closing)) := by
  have hshape : ∀ a v n b : CString, a = v ++ '<' :: (n ++ ['>']) → b = '<' :: closing →
      a ++ w ++ b = v ++ '<' :: (n ++ '>' :: (w ++ '<' :: closing)) := by
    intro a v n b ha hb
    rw [ha, hb]
    simp only [List.append_assoc, List.cons_append, List.nil_append]
  exact hshape _ _ _ _ rfl rfl

def IsLead (lead : CString) : Prop := lead = [] ∨ lead = closing

theorem find_value {lead : CString} (h : IsLead lead) (rest : CString) :
    findText "<value>".toList (lead ++ ("<value>".toList ++ rest)) = some lead.length := by
  have hpattern : "<value>".toList = ['<', 'v', 'a', 'l', 'u', 'e', '>'] := rfl
  rw [hpattern]
  cases h with
  | inl h =>
    rw [h]
    simp [findText]
  | inr h =>
    have hclosing : closing =
        ['/', 's', 't', 'r', 'i', 'n', 'g', '>', '<', '/', 'v', 'a', 'l', 'u', 'e', '>'] := rfl
    rw [h, hclosing]
    simp [findText]

theorem lead_clean {lead : CString} (h : IsLead lead) : nul ∉ lead := by
  cases h with
  | inl h =>
    rw [h]
    decide
  | inr h =>
    rw [h]
    decide

theorem split_step (s : ByteString) {lead : CString} (hlead : IsLead lead) (front rest : Memory)
    (argv : List Nat) : ∃ gap,
    splitStep ⟨front ++ (lead ++ (wrapped s.encoded ++ rest)), front.length, argv⟩ =
      .inr ⟨front ++ lead ++ opened ++ (s.transported ++ nul :: gap) ++ (closing ++ rest),
        (front ++ lead ++ opened ++ (s.transported ++ nul :: gap)).length,
        argv ++ [(front ++ lead ++ opened).length]⟩ := by
  obtain ⟨hnul, hlt⟩ := encoded_clean s
  obtain ⟨gap, hlen, hdecode⟩ := decodeString_encoded s (front ++ lead ++ opened) (closing ++ rest)
  refine ⟨gap, ?_⟩
  have hopening : nul ∉ "<value>".toList := by decide
  have hmem : front ++ (lead ++ (wrapped s.encoded ++ rest)) = front ++ lead ++ "<value>".toList ++
      ([] ++ '<' :: ("string".toList ++ '>' :: (s.encoded ++ '<' :: (closing ++ rest)))) := by
    rw [wrapped_eq]
    simp only [List.append_assoc, List.cons_append, List.nil_append]
  have hvalue : strstr (front ++ (lead ++ (wrapped s.encoded ++ rest))) front.length "<value>".toList =
      some (front.length + lead.length) := by
    rw [strstr, stringAt_front, wrapped_eq, List.append_assoc, cstr_append (lead_clean hlead),
      cstr_append hopening, find_value hlead]
    rfl
  have hseven : front.length + lead.length + 7 = (front ++ lead ++ "<value>".toList).length := by
    have hlen : "<value>".toList.length = 7 := rfl
    rw [List.length_append, List.length_append, hlen]
  have htag : strchr (front ++ (lead ++ (wrapped s.encoded ++ rest))) (front.length + lead.length + 7)
      '<' = some (front.length + lead.length + 7) := by
    rw [hmem, hseven, strchr_front (by simp) (by simp) (by decide)]
    rfl
  have hcut : front ++ (lead ++ (wrapped s.encoded ++ rest)) =
      (front ++ lead ++ "<value><".toList) ++
        ("string".toList ++ '>' :: (s.encoded ++ '<' :: (closing ++ rest))) := by
    have hopen : "<value><".toList = "<value>".toList ++ ['<'] := rfl
    rw [hmem, hopen]
    simp only [List.append_assoc, List.cons_append, List.nil_append]
  have hstart : front.length + lead.length + 7 + 1 = (front ++ lead ++ "<value><".toList).length := by
    have hlen : "<value><".toList.length = 8 := rfl
    rw [List.length_append, List.length_append, hlen]
  have hend : strchr (front ++ (lead ++ (wrapped s.encoded ++ rest)))
      (front.length + lead.length + 7 + 1) '>' = some (front.length + lead.length + 7 + 1 + 6) := by
    rw [hcut, hstart, strchr_front (by decide) (by decide) (by decide)]
    rfl
  have hset : (front ++ (lead ++ (wrapped s.encoded ++ rest))).set
      (front.length + lead.length + 7 + 1 + 6) nul =
        front ++ lead ++ opened ++ (s.encoded ++ '<' :: (closing ++ rest)) := by
    have hsix : (6 : Nat) = "string".toList.length := rfl
    have hopen : opened = "<value><".toList ++ ("string".toList ++ [nul]) := rfl
    rw [hcut, hstart, hsix, set_front, hopen]
    simp only [List.append_assoc, List.cons_append, List.nil_append]
  have hname : stringAt (front ++ lead ++ opened ++ (s.encoded ++ '<' :: (closing ++ rest)))
      (front.length + lead.length + 7 + 1) = "string".toList := by
    have hopen : opened = "<value><".toList ++ ("string".toList ++ [nul]) := rfl
    have hshape : front ++ lead ++ opened ++ (s.encoded ++ '<' :: (closing ++ rest)) =
        (front ++ lead ++ "<value><".toList) ++
          ("string".toList ++ nul :: (s.encoded ++ '<' :: (closing ++ rest))) := by
      rw [hopen]
      simp only [List.append_assoc, List.cons_append, List.nil_append]
    rw [hshape, hstart, stringAt_front]
    rfl
  have hstr : front.length + lead.length + 7 + 1 + 6 + 1 = (front ++ lead ++ opened).length := by
    have hlen : opened.length = 15 := rfl
    rw [List.length_append, List.length_append, hlen]
  have hclose : strchr (front ++ lead ++ opened ++ (s.encoded ++ '<' :: (closing ++ rest)))
      (front ++ lead ++ opened).length '<' =
        some ((front ++ lead ++ opened).length + s.encoded.length) :=
    strchr_front hnul hlt (by decide) _ _
  have hsame : strcaseEq "string".toList "string".toList = true := by decide
  rw [splitStep]
  simp only [hvalue, htag, hend, hset, hname, hstr, hclose, hsame, if_true, set_front, hdecode]
  have hpos : (front ++ lead ++ opened).length + s.encoded.length + 1 =
      (front ++ lead ++ opened ++ (s.transported ++ nul :: gap)).length := by
    have hrest : (s.transported ++ nul :: gap).length = s.encoded.length + 1 := by
      rw [List.length_append, List.length_cons]
      omega
    have hall : (front ++ lead ++ opened ++ (s.transported ++ nul :: gap)).length =
        (front ++ lead ++ opened).length + (s.transported ++ nul :: gap).length :=
      List.length_append
    rw [hall, hrest]
    rfl
  rw [hpos]
  simp only [List.append_assoc, List.cons_append]

theorem split_stop {lead : CString} (hlead : IsLead lead) (front : Memory) (argv : List Nat) :
    splitStep ⟨front ++ (lead ++ [nul]), front.length, argv⟩ =
      .inl (front ++ (lead ++ [nul]), argv) := by
  have hnone : findText "<value>".toList lead = none := by
    cases hlead with
    | inl h =>
      rw [h]
      rfl
    | inr h =>
      rw [h]
      decide
  have hvalue : strstr (front ++ (lead ++ [nul])) front.length "<value>".toList = none := by
    have hend : cstr [nul] = [] := rfl
    rw [strstr, stringAt_front, cstr_append (lead_clean hlead), hend, List.append_nil, hnone]
    rfl
  rw [splitStep]
  simp only [hvalue]

theorem split_run (ss : List ByteString) {lead : CString} (hlead : IsLead lead) (front : Memory)
    (argv : List Nat) : ∃ behind places,
    Takes splitStep (ss.length + 1)
      ⟨front ++ (lead ++ ((ss.flatMap fun s => wrapped s.encoded) ++ [nul])), front.length, argv⟩
      (front ++ behind, argv ++ places) ∧
    places.map (stringAt (front ++ behind)) = ss.map ByteString.transported := by
  induction ss generalizing lead front argv with
  | nil =>
    refine ⟨lead ++ [nul], [], ?_, rfl⟩
    rw [List.append_nil]
    exact Takes.stop (split_stop hlead front argv)
  | cons s ss ih =>
    obtain ⟨gap, hstep⟩ := split_step s hlead front
      ((ss.flatMap fun s => wrapped s.encoded) ++ [nul]) argv
    have hclosing : IsLead closing := Or.inr rfl
    obtain ⟨behind, places, htakes, hplaces⟩ := ih hclosing
      (front ++ lead ++ opened ++ (s.transported ++ nul :: gap))
      (argv ++ [(front ++ lead ++ opened).length])
    refine ⟨lead ++ opened ++ (s.transported ++ nul :: gap) ++ behind,
      (front ++ lead ++ opened).length :: places, ?_, ?_⟩
    · have hrun := Takes.next hstep htakes
      simpa only [List.flatMap_cons, List.append_assoc, List.cons_append, List.nil_append,
        List.length_cons] using hrun
    · have hmem : front ++ (lead ++ opened ++ (s.transported ++ nul :: gap) ++ behind) =
          front ++ lead ++ opened ++ (s.transported ++ nul :: gap) ++ behind := by
        simp only [List.append_assoc]
      have hhere : stringAt (front ++ lead ++ opened ++ (s.transported ++ nul :: gap) ++ behind)
          (front ++ lead ++ opened).length = s.transported := by
        have hend : cstr (nul :: (gap ++ behind)) = [] := rfl
        rw [List.append_assoc, stringAt_front, List.append_assoc,
          cstr_append (transported_clean s), List.cons_append, hend, List.append_nil]
      rw [hmem, List.map_cons, List.map_cons, hhere, hplaces]

theorem length_le_values (ss : List ByteString) :
    ss.length ≤ (ss.flatMap fun s => wrapped s.encoded).length := by
  induction ss with
  | nil => rfl
  | cons s ss ih =>
    have hpos : 0 < (wrapped s.encoded).length := by
      rw [wrapped_eq]
      simp
    rw [List.flatMap_cons, List.length_append, List.length_cons]
    omega

theorem splitBuf_values (ss : List ByteString) :
    xmlrpcSplitBuf (ss.flatMap fun s => wrapped s.encoded) = ss.map ByteString.transported := by
  have hlead : IsLead [] := Or.inl rfl
  obtain ⟨behind, places, htakes, hplaces⟩ := split_run ss hlead [] []
  have hmany := length_le_values ss
  have hlimit : ss.length + 1 ≤
      ((ss.flatMap fun s => wrapped s.encoded) ++ [nul]).length + 1 := by
    rw [List.length_append]
    omega
  have hrun := htakes (((ss.flatMap fun s => wrapped s.encoded) ++ [nul]).length + 1)
  rw [if_pos hlimit] at hrun
  rw [List.nil_append, List.nil_append, List.length_nil] at hrun
  rw [xmlrpcSplitBuf, hrun]
  exact hplaces

end splitting

/-- Strings and lists of strings come back the same just where no byte is above 127. -/
theorem strings_transported_iff (s : ByteString) (ss : List ByteString) :
    (stringAt (xmlrpcDecodeString (s.encoded ++ [nul]) 0) 0 = s.text ↔
      ∀ c ∈ s.text, c.toNat ≤ 127) ∧
    (xmlrpcSplitBuf (ss.flatMap fun s => wrapped s.encoded) = ss.map ByteString.text ↔
      ∀ s ∈ ss, ∀ c ∈ s.text, c.toNat ≤ 127) := by
  constructor
  · obtain ⟨gap, -, hdecode⟩ := decodeString_encoded s [] []
    have hend : cstr (nul :: (gap ++ [])) = [] := rfl
    have hback : stringAt (xmlrpcDecodeString (s.encoded ++ [nul]) 0) 0 = s.transported := by
      have hmem : xmlrpcDecodeString (s.encoded ++ [nul]) 0 = s.transported ++ nul :: (gap ++ []) :=
        hdecode
      rw [hmem, stringAt, List.drop_zero, cstr_append (transported_clean s), hend, List.append_nil]
    rw [hback]
    exact transported_eq_iff s
  · rw [splitBuf_values, List.map_inj_left]
    simp only [transported_eq_iff]

/-- A byte above 127 comes back with a semicolon, alone and in a list. -/
theorem high_byte_gains_semicolon :
    stringAt (xmlrpcDecodeString (xmlrpcAppendCharEncode [] [Char.ofNat 233] ++ [nul]) 0) 0 =
      [Char.ofNat 233, ';'] ∧
    xmlrpcSplitBuf (wrapped (xmlrpcAppendCharEncode [] [Char.ofNat 233])) =
      [[Char.ofNat 233, ';']] := by
  decide +kernel

end ChatServices.Xmlrpc

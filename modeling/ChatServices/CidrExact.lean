import ChatServices.Cidr
import ChatServices.Lib.Bits

/-! What `match_ips` matches, bit by bit, and the masks that `valid_ip_or_mask` accepts. -/
namespace ChatServices.Cidr
open ChatServices.Text ChatServices.Match ChatServices.Lib.Bits

inductive Family where
  | inet
  | inet6
  deriving DecidableEq, Repr

def Family.bits : Family → Nat
  | .inet => 32
  | .inet6 => 128

def Family.pton : Family → CString → Option (List Nat)
  | .inet => inetPton4
  | .inet6 => inetPton6

/-- What `match_ips` hands to `comp_with_mask`, where it gets that far. -/
structure Compared where
  family : Family
  ipaddr : List Nat
  maskaddr : List Nat
  cidrlen : Int
  deriving DecidableEq, Repr

def comparedAs (f : Family) (ip ipmask : CString) (cidrlen : Int) : Option Compared :=
  if cidrlen > f.bits then none
  else
    match f.pton ip, f.pton ipmask with
    | some ipaddr, some maskaddr => some ⟨f, ipaddr, maskaddr, cidrlen⟩
    | _, _ => none

def compared (mask address : CString) : Option Compared :=
  let ip := truncate (HOSTLEN + 1) address
  match splitSlash (truncate BUFSIZE mask) with
  | none => none
  | some (ipmask, len) =>
    if atoi len = 0 then none
    else if ':' ∈ ip ∧ ':' ∈ ipmask then comparedAs .inet6 ip ipmask (atoi len)
    else if ':' ∉ ip ∧ ':' ∉ ipmask then comparedAs .inet ip ipmask (atoi len)
    else none

def strtoul (s : CString) : Nat := min (digitsVal (s.takeWhile isDigit)) (2 ^ 64 - 1)

def validIpOrMask (src : CString) : Bool :=
  if HOSTLEN + 6 ≤ src.length then false
  else
    let family := if ':' ∈ src then Family.inet6 else .inet
    let ipaddr := src.takeWhile (· ≠ '/')
    match src.dropWhile (· ≠ '/') with
    | [] => (family.pton ipaddr).isSome
    | _ :: mask =>
      if !mask.head?.any isDigit then false
      else if mask.dropWhile isDigit ≠ [] then false
      else if strtoul mask > family.bits then false
      else (family.pton ipaddr).isSome

def InRange (mask address : CString) : Prop :=
  ∃ (f : Family) (ipmask len : CString) (x y : List Nat), mask = ipmask ++ '/' :: len ∧ '/' ∉ len ∧
    1 ≤ atoi len ∧ atoi len ≤ f.bits ∧ f.pton ipmask = some x ∧ f.pton address = some y ∧
    SamePrefix (atoi len).toNat x y

/-! ### Addresses -/

section pton
variable {s : CString} {x : List Nat}

theorem inetPton4From_spec {done : List Nat} {cur octets : Nat} {sawDigit : Bool}
    (hdone : ∀ b ∈ done, IsByte b) (hcur : IsByte cur)
    (hoctets : octets = done.length + (if sawDigit then 1 else 0)) (hle : octets ≤ 4)
    (hfour : octets = 4 → sawDigit = true)
    (h : inetPton4From s done cur sawDigit octets = some x) :
    x.length = 4 ∧ (∀ b ∈ x, IsByte b) ∧ ':' ∉ s ∧ '/' ∉ s := by
  induction s generalizing done cur octets sawDigit with
  | nil =>
    rw [inetPton4From] at h
    split at h
    · cases h
    · obtain rfl := Option.some.inj h
      have hsaw := hfour (by omega)
      rw [hsaw] at hoctets
      refine ⟨?_, ?_, by simp, by simp⟩
      · simp only [List.length_append, List.length_cons, List.length_nil]
        simp only [if_true] at hoctets
        omega
      · intro b hb
        obtain hb | hb := List.mem_append.mp hb
        · exact hdone b hb
        · rw [List.mem_singleton.mp hb]
          exact hcur
  | cons ch s ih =>
    rw [inetPton4From] at h
    by_cases hdigit : isDigit ch = true
    · rw [if_pos hdigit] at h
      have hplain : ch ≠ ':' ∧ ch ≠ '/' := by
        constructor
        · rintro rfl
          exact absurd hdigit (by decide)
        · rintro rfl
          exact absurd hdigit (by decide)
      dsimp only at h
      by_cases hbig : cur * 10 + digitVal ch > 255
      · rw [if_pos hbig] at h
        cases h
      · rw [if_neg hbig] at h
        have hnew : IsByte (cur * 10 + digitVal ch) := by
          simp only [IsByte]
          omega
        cases sawDigit with
        | true =>
          obtain ⟨hlen, hbytes, hcolon, hslash⟩ := ih hdone hnew hoctets hle hfour (by simpa using h)
          exact ⟨hlen, hbytes, by simp [hcolon, hplain.1.symm], by simp [hslash, hplain.2.symm]⟩
        | false =>
          have h : (if octets + 1 > 4 then none else
              inetPton4From s done (cur * 10 + digitVal ch) true (octets + 1)) = some x := h
          split at h
          · cases h
          · obtain ⟨hlen, hbytes, hcolon, hslash⟩ := ih hdone hnew
              (by simpa using hoctets) (by omega) (fun _ => rfl) h
            exact ⟨hlen, hbytes, by simp [hcolon, hplain.1.symm], by simp [hslash, hplain.2.symm]⟩
    · rw [if_neg hdigit] at h
      split at h
      · rename_i hdot
        simp only [Bool.and_eq_true, decide_eq_true_eq] at hdot
        obtain ⟨rfl, rfl⟩ := hdot
        split at h
        · cases h
        · simp only [if_true] at hoctets
          have hdone' : ∀ b ∈ done ++ [cur], IsByte b := by
            intro b hb
            obtain hb | hb := List.mem_append.mp hb
            · exact hdone b hb
            · rw [List.mem_singleton.mp hb]
              exact hcur
          obtain ⟨hlen, hbytes, hcolon, hslash⟩ := ih hdone' (show IsByte 0 by simp [IsByte])
            (by simpa using hoctets) hle (fun hoct => absurd hoct (by omega)) h
          exact ⟨hlen, hbytes, by simp [hcolon], by simp [hslash]⟩
      · cases h

theorem inetPton4_spec (h : inetPton4 s = some x) :
    x.length = 4 ∧ (∀ b ∈ x, IsByte b) ∧ ':' ∉ s ∧ '/' ∉ s := by
  have hzero : IsByte 0 := by simp [IsByte]
  have hfour : 0 = 4 → false = true := fun h => nomatch h
  have hnil : ∀ b ∈ ([] : List Nat), IsByte b := by simp
  have hoctets : 0 = ([] : List Nat).length + (if false = true then 1 else 0) := rfl
  exact inetPton4From_spec hnil hzero hoctets (Nat.zero_le 4) hfour h

structure Pton6.Ok (s : Pton6) : Prop where
  room : s.tmp.length ≤ 16
  bytes : ∀ b ∈ s.tmp, IsByte b

theorem Pton6.Ok.pushVal {s t : Pton6} (h : s.Ok) (hpush : s.pushVal = some t) :
    t.Ok ∧ t.tmp.length = s.tmp.length + 2 ∧ t.colonp = s.colonp := by
  rw [Pton6.pushVal] at hpush
  split at hpush
  · cases hpush
  · obtain rfl := Option.some.inj hpush
    refine ⟨⟨?_, ?_⟩, by simp, rfl⟩
    · simp only [List.length_append, List.length_cons, List.length_nil]
      omega
    · intro b hb
      simp only [List.mem_append, List.mem_cons, List.not_mem_nil, or_false] at hb
      obtain hb | rfl | rfl := hb
      · exact h.bytes b hb
      · exact Nat.mod_lt _ (by decide)
      · exact Nat.mod_lt _ (by decide)

theorem Pton6.Ok.fill {t : Pton6} (ht : t.Ok) (hx : (match t.colonp with
      | some at_ =>
        if t.tmp.length = 16 then none
        else some (t.tmp.take at_ ++ List.replicate (16 - t.tmp.length) 0 ++ t.tmp.drop at_)
      | none => if t.tmp.length ≠ 16 then none else some t.tmp) = some x) :
    x.length = 16 ∧ (∀ b ∈ x, IsByte b) := by
  have hroom := ht.room
  split at hx
  · rename_i at_ _
    split at hx
    · cases hx
    · obtain rfl := Option.some.inj hx
      constructor
      · simp only [List.length_append, List.length_take, List.length_replicate, List.length_drop]
        omega
      · intro b hb
        simp only [List.mem_append, List.mem_replicate] at hb
        obtain (hb | ⟨-, rfl⟩) | hb := hb
        · exact ht.bytes b (List.mem_of_mem_take hb)
        · simp [IsByte]
        · exact ht.bytes b (List.mem_of_mem_drop hb)
  · split at hx
    · cases hx
    · rename_i hlen
      obtain rfl := Option.some.inj hx
      exact ⟨not_not.mp hlen, ht.bytes⟩

theorem Pton6.Ok.finish {s : Pton6} (h : s.Ok) (hfinish : s.finish = some x) :
    x.length = 16 ∧ (∀ b ∈ x, IsByte b) := by
  rw [Pton6.finish] at hfinish
  by_cases hsaw : s.sawXdigit = true
  · rw [if_pos hsaw] at hfinish
    cases hpush : s.pushVal with
    | none =>
      rw [hpush] at hfinish
      cases hfinish
    | some t =>
      rw [hpush] at hfinish
      exact (h.pushVal hpush).1.fill hfinish
  · rw [if_neg hsaw] at hfinish
    exact h.fill hfinish

theorem Pton6.finish_short {s : Pton6} (hcolon : s.colonp = none) (hroom : s.tmp.length < 14) :
    s.finish = none := by
  rw [Pton6.finish]
  by_cases hsaw : s.sawXdigit = true
  · rw [if_pos hsaw, Pton6.pushVal, if_neg (by omega)]
    simp only [hcolon, List.length_append, List.length_cons, List.length_nil]
    rw [if_pos (by omega)]
  · rw [if_neg hsaw]
    simp only [hcolon]
    rw [if_pos (by omega)]

theorem inetPton6From_spec {t : Pton6} (ht : t.Ok) (h : inetPton6From s t = some x) :
    x.length = 16 ∧ (∀ b ∈ x, IsByte b) := by
  induction s generalizing t with
  | nil => exact ht.finish h
  | cons c s ih =>
    rw [inetPton6From] at h
    dsimp only at h
    split at h
    · split at h
      · cases h
      · refine ih ?_ h
        exact ⟨ht.room, ht.bytes⟩
    · split at h
      · split at h
        · split at h
          · cases h
          · refine ih ?_ h
            exact ⟨ht.room, ht.bytes⟩
        · split at h
          · cases h
          · have ht' : Pton6.Ok { t with curtok := s } := ⟨ht.room, ht.bytes⟩
            split at h
            · cases h
            · rename_i u hpush
              exact ih (ht'.pushVal hpush).1 h
      · split at h
        · rename_i hdot
          simp only [Bool.and_eq_true, decide_eq_true_eq] at hdot
          split at h
          · rename_i bytes hfour
            obtain ⟨hlen, hbytes, -⟩ := inetPton4_spec hfour
            refine Pton6.Ok.finish ⟨?_, ?_⟩ h
            · rw [List.length_append, hlen]
              exact hdot.2
            · intro b hb
              obtain hb | hb := List.mem_append.mp hb
              · exact ht.bytes b hb
              · exact hbytes b hb
          · cases h
        · cases h

theorem inetPton6_spec (h : inetPton6 s = some x) : x.length = 16 ∧ (∀ b ∈ x, IsByte b) := by
  have hstart : ∀ curtok, Pton6.Ok ⟨[], none, false, 0, curtok⟩ := fun curtok =>
    ⟨Nat.zero_le 16, fun b hb => nomatch hb⟩
  unfold inetPton6 at h
  split at h
  · exact inetPton6From_spec (hstart _) h
  · cases h
  · exact inetPton6From_spec (hstart _) h

theorem inetPton6From_colon {t : Pton6} (hcolon : t.colonp = none) (htmp : t.tmp = [])
    (hs : ':' ∉ s) : inetPton6From s t = none := by
  induction s generalizing t with
  | nil => exact Pton6.finish_short hcolon (by simp [htmp])
  | cons c s ih =>
    simp only [List.mem_cons, not_or] at hs
    have hlower : tolower c ≠ ':' := by
      rw [tolower]
      split
      · rename_i hupper
        simp only [char_le_iff, Char.reduceToNat] at hupper
        intro heq
        have hnat := congrArg Char.toNat heq
        rw [toNat_ofNat_add (by omega)] at hnat
        simp only [Char.reduceToNat] at hnat
        omega
      · exact Ne.symm hs.1
    rw [inetPton6From]
    dsimp only
    split
    · split
      · rfl
      · exact ih hcolon htmp hs.2
    · rw [if_neg hlower]
      split
      · split
        · rename_i bytes hfour
          obtain ⟨hlen, -⟩ := inetPton4_spec hfour
          refine Pton6.finish_short hcolon ?_
          rw [htmp, List.nil_append, hlen]
          decide
        · rfl
      · rfl

theorem colon_of_inetPton6 (h : inetPton6 s = some x) : ':' ∈ s := by
  by_contra hs
  unfold inetPton6 at h
  split at h
  · simp at hs
  · simp at hs
  · rw [inetPton6From_colon rfl rfl hs] at h
    cases h

theorem pton_spec {f : Family} (h : f.pton s = some x) :
    8 * x.length = f.bits ∧ (∀ b ∈ x, IsByte b) ∧ (':' ∈ s ↔ f = .inet6) := by
  cases f with
  | inet =>
    obtain ⟨hlen, hbytes, hcolon, -⟩ := inetPton4_spec h
    exact ⟨by rw [hlen]; rfl, hbytes, by simp [hcolon]⟩
  | inet6 =>
    obtain ⟨hlen, hbytes⟩ := inetPton6_spec h
    exact ⟨by rw [hlen]; rfl, hbytes, by simp [colon_of_inetPton6 h]⟩

end pton
/-! ### The comparison -/

section comparison
variable {mask address : CString}

theorem dropWhile_slash {l : CString} (h : '/' ∈ l) : ∃ r, l.dropWhile (· ≠ '/') = '/' :: r := by
  induction l with
  | nil => cases h
  | cons c l ih =>
    by_cases hc : c = '/'
    · exact ⟨l, by simp [hc]⟩
    · obtain ⟨r, hr⟩ := ih ((List.mem_cons.mp h).resolve_left (Ne.symm hc))
      exact ⟨r, by simpa [hc] using hr⟩

theorem splitSlash_iff {s ipmask len : CString} :
    splitSlash s = some (ipmask, len) ↔ s = ipmask ++ '/' :: len ∧ '/' ∉ len := by
  rw [splitSlash]
  constructor
  · intro h
    split at h
    · rename_i hmem
      obtain ⟨rfl, rfl⟩ := Prod.mk.inj (Option.some.inj h)
      have hsplit : s.reverse = s.reverse.takeWhile (· ≠ '/') ++ s.reverse.dropWhile (· ≠ '/') :=
        List.takeWhile_append_dropWhile.symm
      have hnot : '/' ∉ s.reverse.takeWhile (· ≠ '/') := by
        intro hin
        simpa using List.mem_takeWhile_imp hin
      obtain ⟨r, hr⟩ := dropWhile_slash (List.mem_reverse.mpr hmem)
      refine ⟨?_, by simpa using hnot⟩
      rw [hr] at hsplit ⊢
      have hrev := congrArg List.reverse hsplit
      simpa using hrev
    · cases h
  · rintro ⟨rfl, hlen⟩
    have hmem : '/' ∈ ipmask ++ '/' :: len := by simp
    have hall : ∀ c ∈ len.reverse, (decide (c ≠ '/')) = true := by
      intro c hc
      have hne : c ≠ '/' := fun heq => hlen (heq ▸ List.mem_reverse.mp hc)
      simpa using hne
    rw [if_pos hmem, List.reverse_append, List.reverse_cons, List.append_assoc,
      List.takeWhile_append_of_pos hall, List.dropWhile_append_of_pos hall]
    simp

theorem comparedAs_eq_some {f : Family} {ip ipmask : CString} {n : Int} {c : Compared} :
    comparedAs f ip ipmask n = some c ↔
      n ≤ f.bits ∧ f.pton ip = some c.ipaddr ∧ f.pton ipmask = some c.maskaddr ∧
        c.family = f ∧ c.cidrlen = n := by
  rw [comparedAs]
  by_cases hbig : n > f.bits
  · rw [if_pos hbig]
    simp only [reduceCtorEq, false_iff, not_and]
    omega
  · rw [if_neg hbig]
    have hle : n ≤ f.bits := by omega
    cases hip : f.pton ip with
    | none => simp
    | some x =>
      cases hmask : f.pton ipmask with
      | none => simp
      | some y =>
        simp only [Option.some.injEq, hle, true_and]
        constructor
        · rintro rfl
          exact ⟨rfl, rfl, rfl, rfl⟩
        · rintro ⟨rfl, rfl, rfl, rfl⟩
          rfl

theorem compared_eq_some {c : Compared} : compared mask address = some c ↔
    ∃ ipmask len, truncate BUFSIZE mask = ipmask ++ '/' :: len ∧ '/' ∉ len ∧
      atoi len ≠ 0 ∧ atoi len ≤ c.family.bits ∧ c.cidrlen = atoi len ∧
      c.family.pton ipmask = some c.maskaddr ∧
      c.family.pton (truncate (HOSTLEN + 1) address) = some c.ipaddr := by
  have hcall : compared mask address = some c ↔ ∃ ipmask len,
      splitSlash (truncate BUFSIZE mask) = some (ipmask, len) ∧ atoi len ≠ 0 ∧
      comparedAs c.family (truncate (HOSTLEN + 1) address) ipmask (atoi len) = some c := by
    rw [compared]
    generalize truncate (HOSTLEN + 1) address = ip
    cases hsplit : splitSlash (truncate BUFSIZE mask) with
    | none => simp
    | some p =>
      obtain ⟨ipmask, len⟩ := p
      have hcolons : ∀ f, comparedAs f ip ipmask (atoi len) = some c →
          c.family = f ∧ (':' ∈ ip ↔ f = .inet6) ∧ (':' ∈ ipmask ↔ f = .inet6) := by
        intro f h
        obtain ⟨-, hip, hmask, hf, -⟩ := comparedAs_eq_some.mp h
        exact ⟨hf, (pton_spec hip).2.2, (pton_spec hmask).2.2⟩
      simp only [Option.some.injEq, Prod.mk.injEq]
      constructor
      · intro h
        split at h
        · cases h
        · rename_i hzero
          split at h
          · exact ⟨ipmask, len, ⟨rfl, rfl⟩, hzero, (hcolons _ h).1 ▸ h⟩
          · split at h
            · exact ⟨ipmask, len, ⟨rfl, rfl⟩, hzero, (hcolons _ h).1 ▸ h⟩
            · cases h
      · rintro ⟨_, _, ⟨rfl, rfl⟩, hzero, h⟩
        obtain ⟨-, hip, hmask⟩ := hcolons _ h
        rw [if_neg hzero]
        cases hf : c.family with
        | inet =>
          rw [hf] at h hip hmask
          rw [if_neg (by simp [hip]), if_pos (by simp [hip, hmask])]
          exact h
        | inet6 =>
          rw [hf] at h hip hmask
          rw [if_pos (by simp [hip, hmask])]
          exact h
  rw [hcall]
  simp only [splitSlash_iff, comparedAs_eq_some]
  constructor
  · rintro ⟨ipmask, len, ⟨hmask, hlen⟩, hzero, hle, hip, haddr, -, hcidr⟩
    exact ⟨ipmask, len, hmask, hlen, hzero, hle, hcidr, haddr, hip⟩
  · rintro ⟨ipmask, len, hmask, hlen, hzero, hle, hcidr, haddr, hip⟩
    exact ⟨ipmask, len, ⟨hmask, hlen⟩, hzero, hle, hip, haddr, trivial, hcidr⟩

theorem matchIps_eq (mask address : CString) : matchIps mask address =
    (compared mask address).any fun c =>
      compWithMask c.ipaddr c.maskaddr (c.cidrlen % 2 ^ 32).toNat := by
  rw [matchIps, compared]
  dsimp only
  generalize truncate (HOSTLEN + 1) address = ip
  cases splitSlash (truncate BUFSIZE mask) with
  | none => rfl
  | some p =>
    obtain ⟨ipmask, len⟩ := p
    have hcompare : ∀ f : Family, (if atoi len > f.bits then false
        else compareIps f.pton ip ipmask (atoi len)) =
          (comparedAs f ip ipmask (atoi len)).any fun c =>
            compWithMask c.ipaddr c.maskaddr (c.cidrlen % 2 ^ 32).toNat := by
      intro f
      rw [comparedAs]
      split
      · rfl
      · rw [compareIps]
        cases f.pton ip with
        | none => rfl
        | some x =>
          cases f.pton ipmask with
          | none => rfl
          | some y => rfl
    dsimp only
    split
    · rfl
    · split
      · exact hcompare .inet6
      · split
        · exact hcompare .inet
        · rfl

theorem compWithMask_iff {c : Compared} (h : compared mask address = some c)
    (hlen : 0 ≤ c.cidrlen) : compWithMask c.ipaddr c.maskaddr (c.cidrlen % 2 ^ 32).toNat = true ↔
      SamePrefix c.cidrlen.toNat c.maskaddr c.ipaddr := by
  obtain ⟨ipmask, len, -, -, -, hle, hcidr, haddr, hip⟩ := compared_eq_some.mp h
  obtain ⟨hmaskbits, hmaskbytes, -⟩ := pton_spec haddr
  obtain ⟨hipbits, hipbytes, -⟩ := pton_spec hip
  have hbits : c.family.bits ≤ 128 := by cases c.family <;> decide
  have hmod : (c.cidrlen % 2 ^ 32).toNat = c.cidrlen.toNat := by omega
  have hsame := samePrefix_iff hipbytes hmaskbytes (show c.ipaddr.length = c.maskaddr.length by omega)
    (show c.cidrlen.toNat ≤ 8 * c.ipaddr.length by omega)
  have hcomp : compWithMask c.ipaddr c.maskaddr (c.cidrlen % 2 ^ 32).toNat = true ↔
      SamePrefix c.cidrlen.toNat c.ipaddr c.maskaddr := by
    rw [hsame, compWithMask, hmod]
    simp
  exact hcomp.trans ⟨SamePrefix.symm, SamePrefix.symm⟩

theorem matchIps_iff (h : ∀ c ∈ compared mask address, 0 ≤ c.cidrlen) :
    matchIps mask address = true ↔
      InRange (truncate BUFSIZE mask) (truncate (HOSTLEN + 1) address) := by
  have hcalled : ∀ f ipmask len x y, truncate BUFSIZE mask = ipmask ++ '/' :: len → '/' ∉ len →
      1 ≤ atoi len → atoi len ≤ Family.bits f → f.pton ipmask = some x →
      f.pton (truncate (HOSTLEN + 1) address) = some y →
      compared mask address = some ⟨f, y, x, atoi len⟩ := by
    intro f ipmask len x y hmask hslash hpos hle haddr hip
    exact compared_eq_some.mpr ⟨ipmask, len, hmask, hslash, by omega, hle, rfl, haddr, hip⟩
  rw [matchIps_eq]
  cases hc : compared mask address with
  | none =>
    simp only [Option.any_none, Bool.false_eq_true, false_iff]
    rintro ⟨f, ipmask, len, x, y, hmask, hslash, hpos, hle, haddr, hip, -⟩
    have hsome := hcalled f ipmask len x y hmask hslash hpos hle haddr hip
    rw [hc] at hsome
    cases hsome
  | some c =>
    have hpos := h c hc
    rw [Option.any_some, compWithMask_iff hc hpos]
    constructor
    · intro hfront
      obtain ⟨ipmask, len, hmask, hslash, hzero, hle, hcidr, haddr, hip⟩ := compared_eq_some.mp hc
      rw [hcidr] at hpos hfront
      exact ⟨c.family, ipmask, len, c.maskaddr, c.ipaddr, hmask, hslash, by omega, hle, haddr, hip,
        hfront⟩
    · rintro ⟨f, ipmask, len, x, y, hmask, hslash, hpos, hle, haddr, hip, hfront⟩
      have hsome := hcalled f ipmask len x y hmask hslash hpos hle haddr hip
      rw [hc] at hsome
      obtain rfl := Option.some.inj hsome
      exact hfront

theorem compared_within {c : Compared} (h : compared mask address = some c)
    (hlen : 0 ≤ c.cidrlen) : 1 ≤ c.cidrlen ∧ c.cidrlen ≤ 8 * c.ipaddr.length ∧
      c.ipaddr.length = c.maskaddr.length := by
  obtain ⟨ipmask, len, -, -, hzero, hle, hcidr, haddr, hip⟩ := compared_eq_some.mp h
  have hmaskbits := (pton_spec haddr).1
  have hipbits := (pton_spec hip).1
  omega

end comparison

/-! ### Masks that pass the validator -/

section validator
variable {mask : CString}

theorem validIpOrMask_split (hvalid : validIpOrMask mask = true) (hslash : '/' ∈ mask) :
    ∃ (f : Family) (ipmask len : CString) (x : List Nat), mask = ipmask ++ '/' :: len ∧
      f.pton ipmask = some x ∧ len ≠ [] ∧ (∀ c ∈ len, isDigit c = true) ∧
      digitsVal len ≤ f.bits ∧ mask.length < HOSTLEN + 6 := by
  rw [validIpOrMask] at hvalid
  split at hvalid
  · cases hvalid
  · rename_i hlength
    obtain ⟨len, hlen⟩ := dropWhile_slash hslash
    dsimp only at hvalid
    rw [hlen] at hvalid
    generalize (if ':' ∈ mask then Family.inet6 else .inet) = f at hvalid
    have hmask : mask = mask.takeWhile (· ≠ '/') ++ '/' :: len := by
      rw [← hlen, List.takeWhile_append_dropWhile]
    dsimp only at hvalid
    split at hvalid
    · cases hvalid
    · rename_i hhead
      split at hvalid
      · cases hvalid
      · rename_i hrest
        split at hvalid
        · cases hvalid
        · rename_i hbits
          obtain ⟨x, hx⟩ := Option.isSome_iff_exists.mp hvalid
          have hdigits : ∀ c ∈ len, isDigit c = true :=
            List.dropWhile_eq_nil_iff.mp (not_not.mp hrest)
          have hne : len ≠ [] := by
            rintro rfl
            simp at hhead
          have hval : digitsVal len ≤ f.bits := by
            rw [strtoul, List.takeWhile_eq_self_iff.mpr hdigits] at hbits
            have hle : f.bits ≤ 128 := by cases f <;> decide
            omega
          exact ⟨f, _, len, x, hmask, hx, hne, hdigits, hval, by omega⟩

theorem family_eq {f f' : Family} (h : f' = .inet6 ↔ f = .inet6) : f' = f := by
  cases f
  · cases f'
    · rfl
    · exact absurd (h.mp rfl) (by decide)
  · exact h.mpr rfl

theorem matchIps_valid {f : Family} {ipmask len : CString} {x : List Nat}
    (hmask : mask = ipmask ++ '/' :: len) (hx : f.pton ipmask = some x)
    (hdigits : ∀ c ∈ len, isDigit c = true) (hval : digitsVal len ≤ f.bits)
    (hlength : mask.length < HOSTLEN + 6) {s : CString} (hs : s.length ≤ HOSTLEN) :
    matchIps mask s = true ↔
      1 ≤ digitsVal len ∧ ∃ y, f.pton s = some y ∧ SamePrefix (digitsVal len) x y := by
  have hbits : f.bits ≤ 128 := by cases f <;> decide
  have hatoi := atoi_digits hdigits (by omega)
  have htmask : truncate BUFSIZE mask = mask :=
    List.take_of_length_le (by simp only [HOSTLEN] at hlength; simp only [BUFSIZE]; omega)
  have hts : truncate (HOSTLEN + 1) s = s := List.take_of_length_le (by simpa using hs)
  have hslash : '/' ∉ len := by
    intro hmem
    exact absurd (hdigits _ hmem) (by decide)
  have hread : ∀ ipmask' len', truncate BUFSIZE mask = ipmask' ++ '/' :: len' → '/' ∉ len' →
      ipmask' = ipmask ∧ len' = len := by
    intro ipmask' len' hsplit hslash'
    have hsame := splitSlash_iff.mpr ⟨hsplit, hslash'⟩
    rw [htmask, splitSlash_iff.mpr ⟨hmask, hslash⟩] at hsame
    obtain ⟨rfl, rfl⟩ := Prod.mk.inj (Option.some.inj hsame)
    exact ⟨rfl, rfl⟩
  have hcalls : ∀ c ∈ compared mask s, 0 ≤ c.cidrlen := by
    intro c hc
    obtain ⟨ipmask', len', hsplit, hslash', -, -, hcidr, -⟩ := compared_eq_some.mp hc
    obtain ⟨rfl, rfl⟩ := hread _ _ hsplit hslash'
    omega
  rw [matchIps_iff hcalls, hts]
  constructor
  · rintro ⟨f', ipmask', len', x', y, hsplit, hslash', hpos, hle, hx', hy, hfront⟩
    obtain ⟨rfl, rfl⟩ := hread _ _ hsplit hslash'
    have hfamily : f' = f := family_eq ((pton_spec hx').2.2.symm.trans (pton_spec hx).2.2)
    subst hfamily
    have hsame : x' = x := Option.some.inj (hx'.symm.trans hx)
    rw [hatoi] at hpos hfront
    exact ⟨by omega, y, hy, hsame ▸ hfront⟩
  · rintro ⟨hpos, y, hy, hfront⟩
    refine ⟨f, ipmask, len, x, y, htmask.trans hmask, hslash, ?_, ?_, hx, hy, ?_⟩
    · omega
    · omega
    · rw [hatoi]
      exact hfront

end validator

/-- `match_ips` matches the addresses in the range of the mask, by at most the bits there are, unless
it reads a negative length; a mask that passes the validator has none, and matches its network if
its length is not zero. -/
theorem match_ips_exact (mask address : CString) :
    ((∀ c ∈ compared mask address, 0 ≤ c.cidrlen) →
      (matchIps mask address = true ↔
        InRange (truncate BUFSIZE mask) (truncate (HOSTLEN + 1) address)) ∧
      ∀ c ∈ compared mask address, 1 ≤ c.cidrlen ∧ c.cidrlen ≤ 8 * c.ipaddr.length ∧
        c.ipaddr.length = c.maskaddr.length) ∧
    (validIpOrMask mask = true → '/' ∈ mask →
      ∃ (f : Family) (ipmask len : CString) (x : List Nat), mask = ipmask ++ '/' :: len ∧
        f.pton ipmask = some x ∧ len ≠ [] ∧ (∀ c ∈ len, isDigit c = true) ∧
        digitsVal len ≤ f.bits ∧ ∀ s, s.length ≤ HOSTLEN →
          (matchIps mask s = true ↔
            1 ≤ digitsVal len ∧ ∃ y, f.pton s = some y ∧ SamePrefix (digitsVal len) x y) ∧
          (1 ≤ digitsVal len → f.pton s = some (clear (digitsVal len) x) →
            matchIps mask s = true)) := by
  constructor
  · intro h
    exact ⟨matchIps_iff h, fun c hc => compared_within hc (h c hc)⟩
  · intro hvalid hslash
    obtain ⟨f, ipmask, len, x, hmask, hx, hne, hdigits, hval, hlength⟩ :=
      validIpOrMask_split hvalid hslash
    refine ⟨f, ipmask, len, x, hmask, hx, hne, hdigits, hval, fun s hs => ?_⟩
    have hiff := matchIps_valid hmask hx hdigits hval hlength hs
    refine ⟨hiff, fun hpos hnetwork => hiff.mpr ⟨hpos, _, hnetwork, ?_⟩⟩
    exact samePrefix_clear _ (pton_spec hx).2.1

theorem match_ips_exact_ten :
    InRange (truncate BUFSIZE "10.0.0.0/8".toList) (truncate (HOSTLEN + 1) "10.1.2.3".toList) ∧
      ∃ (f : Family) (ipmask len : CString) (x : List Nat),
        "10.0.0.0/8".toList = ipmask ++ '/' :: len ∧ f.pton ipmask = some x ∧
        ∀ s, s.length ≤ HOSTLEN → (matchIps "10.0.0.0/8".toList s = true ↔
          1 ≤ digitsVal len ∧ ∃ y, f.pton s = some y ∧ SamePrefix (digitsVal len) x y) := by
  obtain ⟨hexact, hvalid⟩ := match_ips_exact "10.0.0.0/8".toList "10.1.2.3".toList
  obtain ⟨f, ipmask, len, x, hmask, hx, -, -, -, hall⟩ := hvalid (by decide +kernel) (by decide)
  exact ⟨(hexact (by decide +kernel)).1.mp (by decide +kernel), f, ipmask, len, x, hmask, hx,
    fun s hs => (hall s hs).1⟩

/-- A mask of no bits passes the validator and matches nothing; a negative number of bits is
handed on to the comparison. -/
theorem match_ips_zero_bits :
    validIpOrMask "0.0.0.0/0".toList = true ∧ matchIps "0.0.0.0/0".toList "0.0.0.0".toList = false ∧
      compared "10.0.0.0/-1".toList "10.0.0.0".toList =
        some ⟨.inet, [10, 0, 0, 0], [10, 0, 0, 0], -1⟩ := by
  decide +kernel

end ChatServices.Cidr

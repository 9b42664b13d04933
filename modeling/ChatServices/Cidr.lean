import ChatServices.Match
import Mathlib.Algebra.Group.Int.Defs

/-! `match_ips`: addresses in their text form, and masks of the form address/bits. -/
namespace ChatServices.Cidr
open ChatServices.Text ChatServices.Match

def BUFSIZE : Nat := 1024
def HOSTLEN : Nat := 64

/-- `comp_with_mask` on the bytes of two addresses. -/
def compWithMask (addr dest : List Nat) (mask : Nat) : Bool :=
  addr.take (mask / 8) = dest.take (mask / 8) &&
    (mask % 8 = 0 || addr.getD (mask / 8) 0 >>> (8 - mask % 8) =
      dest.getD (mask / 8) 0 >>> (8 - mask % 8))

def digitVal (c : Char) : Nat := c.toNat - '0'.toNat

/-- The loop of `inet_pton4`: the octets before the current one, and whether it has a digit. -/
def inetPton4From : CString → List Nat → Nat → Bool → Nat → Option (List Nat)
  | [], done, cur, _, octets => if octets < 4 then none else some (done ++ [cur])
  | ch :: src, done, cur, sawDigit, octets =>
    if isDigit ch then
      let new := cur * 10 + digitVal ch
      if new > 255 then none
      else if !sawDigit then
        if octets + 1 > 4 then none else inetPton4From src done new true (octets + 1)
      else inetPton4From src done new true octets
    else if ch = '.' && sawDigit then
      if octets = 4 then none else inetPton4From src (done ++ [cur]) 0 false octets
    else none

def inetPton4 (src : CString) : Option (List Nat) := inetPton4From src [] 0 false 0

/-- What is written of an address, `colonp` an index into it. -/
structure Pton6 where
  tmp : List Nat
  colonp : Option Nat
  sawXdigit : Bool
  val : Nat
  curtok : CString

def xdigitVal (ch : Char) : Option Nat :=
  if isDigit ch then some (digitVal ch)
  else if 'a' ≤ ch ∧ ch ≤ 'f' then some (ch.toNat - 'a'.toNat + 10)
  else none

def Pton6.pushVal (s : Pton6) : Option Pton6 :=
  if s.tmp.length + 2 > 16 then none
  else some { s with tmp := s.tmp ++ [s.val / 256 % 256, s.val % 256], sawXdigit := false, val := 0 }

/-- What follows the loop of `inet_pton6`: the shift of what stands behind `::`. -/
def Pton6.finish (s : Pton6) : Option (List Nat) :=
  match if s.sawXdigit then s.pushVal else some s with
  | none => none
  | some s =>
    match s.colonp with
    | some at_ =>
      if s.tmp.length = 16 then none
      else some (s.tmp.take at_ ++ List.replicate (16 - s.tmp.length) 0 ++ s.tmp.drop at_)
    | none => if s.tmp.length ≠ 16 then none else some s.tmp

def inetPton6From : CString → Pton6 → Option (List Nat)
  | [], s => s.finish
  | c :: src, s =>
    let ch := tolower c
    match xdigitVal ch with
    | some d =>
      if s.val * 16 + d > 0xffff then none
      else inetPton6From src { s with val := s.val * 16 + d, sawXdigit := true }
    | none =>
      if ch = ':' then
        let s := { s with curtok := src }
        if !s.sawXdigit then
          if s.colonp.isSome then none
          else inetPton6From src { s with colonp := some s.tmp.length }
        else if src = [] then none
        else
          match s.pushVal with
          | none => none
          | some s => inetPton6From src s
      else if src ≠ [] && ch = '.' && s.tmp.length + 4 ≤ 16 then
        match inetPton4 s.curtok with
        | some bytes => Pton6.finish { s with tmp := s.tmp ++ bytes, sawXdigit := false }
        | none => none
      else none

def inetPton6 (src : CString) : Option (List Nat) :=
  match src with
  | ':' :: ':' :: rest => inetPton6From (':' :: rest) ⟨[], none, false, 0, ':' :: rest⟩
  | ':' :: _ => none
  | _ => inetPton6From src ⟨[], none, false, 0, src⟩

def digitsVal (s : CString) : Nat := s.foldl (fun n c => n * 10 + digitVal c) 0

/-- `strtol (s, NULL, 10)`, which stops at the ends of its type. -/
def strtol (s : CString) : Int :=
  let s := s.dropWhile (fun c => c = ' ' || ('\t' ≤ c && c ≤ '\x0d'))
  let num (s : CString) : Nat := digitsVal (s.takeWhile isDigit)
  match s with
  | '-' :: s => max (-(num s : Int)) (-2 ^ 63)
  | '+' :: s => min (num s) (2 ^ 63 - 1)
  | s => min (num s) (2 ^ 63 - 1)

/-- `atoi`: the low bits of what `strtol` reads. -/
def atoi (s : CString) : Int := (BitVec.ofInt 32 (strtol s)).toInt

/-- `strrchr (s, '/')` as a split. -/
def splitSlash (s : CString) : Option (CString × CString) :=
  if '/' ∈ s then
    some ((s.reverse.dropWhile (· ≠ '/')).tail.reverse, (s.reverse.takeWhile (· ≠ '/')).reverse)
  else none

def compareIps (pton : CString → Option (List Nat)) (ip ipmask : CString) (cidrlen : Int) : Bool :=
  match pton ip, pton ipmask with
  | some ipaddr, some maskaddr => compWithMask ipaddr maskaddr (cidrlen % 2 ^ 32).toNat
  | _, _ => false

/-- `!match_ips (mask, address)`. -/
def matchIps (mask address : CString) : Bool :=
  let ip := truncate (HOSTLEN + 1) address
  match splitSlash (truncate BUFSIZE mask) with
  | none => false
  | some (ipmask, len) =>
    let cidrlen := atoi len
    if cidrlen = 0 then false
    else if ':' ∈ ip ∧ ':' ∈ ipmask then
      if cidrlen > 128 then false else compareIps inetPton6 ip ipmask cidrlen
    else if ':' ∉ ip ∧ ':' ∉ ipmask then
      if cidrlen > 32 then false else compareIps inetPton4 ip ipmask cidrlen
    else false

example : matchIps "10.0.0.0/8".toList "10.1.2.3".toList = true := by decide +kernel
example : matchIps "2001:db8::/33".toList "2001:DB8:7fff::1".toList = true := by decide +kernel
example : matchIps "10.0.0.0/8".toList "10.1.0.0/16".toList = false := by decide +kernel

/-! ### Numbers -/

theorem digit_not_space {c : Char} (h : isDigit c = true) :
    (c = ' ' || ('\t' ≤ c && c ≤ '\x0d')) = false := by
  simp only [isDigit, decide_eq_true_eq, char_le_iff, Char.reduceToNat] at h
  have hblank : c ≠ ' ' := by
    rintro rfl
    simp at h
  simp only [hblank, decide_false, Bool.false_or, Bool.and_eq_false_iff,
    decide_eq_false_iff_not, char_le_iff, Char.reduceToNat]
  omega

theorem digit_not_sign {c : Char} (h : isDigit c = true) : c ≠ '-' ∧ c ≠ '+' := by
  constructor
  · rintro rfl
    revert h
    decide
  · rintro rfl
    revert h
    decide

theorem strtol_leading {c : Char} {len rest : CString} (hdigits : ∀ d ∈ c :: len, isDigit d = true)
    (hrest : ∀ d ∈ rest.head?, isDigit d = false) :
    strtol (c :: len ++ rest) = min (digitsVal (c :: len) : Int) (2 ^ 63 - 1) := by
  have htake : (c :: len ++ rest).takeWhile isDigit = c :: len := by
    have hall : ∀ d ∈ c :: len, isDigit d = true := hdigits
    rw [List.takeWhile_append_of_pos hall]
    cases rest with
    | nil => simp
    | cons d rest => simp [hrest d rfl]
  rw [strtol]
  have hspace := digit_not_space (hdigits c List.mem_cons_self)
  obtain ⟨hminus, hplus⟩ := digit_not_sign (hdigits c List.mem_cons_self)
  rw [List.cons_append, List.dropWhile_cons_of_neg (by simp [hspace])]
  rw [List.cons_append] at htake
  split
  · rename_i heq
    exact absurd (List.cons.inj heq).1 hminus
  · rename_i heq
    exact absurd (List.cons.inj heq).1 hplus
  · simp only [htake]

theorem atoi_leading {c : Char} {len rest : CString} (hdigits : ∀ d ∈ c :: len, isDigit d = true)
    (hrest : ∀ d ∈ rest.head?, isDigit d = false) (hval : digitsVal (c :: len) < 2 ^ 31) :
    atoi (c :: len ++ rest) = digitsVal (c :: len) := by
  have hread : strtol (c :: len ++ rest) = digitsVal (c :: len) := by
    rw [strtol_leading hdigits hrest]
    have hlimit : (2 : Int) ^ 63 - 1 = 9223372036854775807 := rfl
    rw [hlimit]
    omega
  rw [atoi, hread, BitVec.toInt_ofInt]
  exact Int.bmod_eq_of_le (by omega) (by omega)

theorem atoi_digits {len : CString} (hdigits : ∀ c ∈ len, isDigit c = true)
    (hval : digitsVal len < 2 ^ 31) : atoi len = digitsVal len := by
  cases len with
  | nil => rfl
  | cons c len =>
    have hstop : ∀ d ∈ ([] : CString).head?, isDigit d = false := by simp
    have hread := atoi_leading hdigits hstop hval
    rwa [List.append_nil] at hread

end ChatServices.Cidr

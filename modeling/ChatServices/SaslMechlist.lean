import ChatServices.Lib.Cells
import ChatServices.Lib.Joined
import ChatServices.SaslServ

/-! The buffer that the mechanism list is built in: which names are copied, and where the last comma
and the end of the text go. -/
namespace ChatServices.SaslMechlist
open ChatServices.Lib ChatServices.Lib.Joined ChatServices.Sasl ChatServices.Text

/-- `l + strlen (name)`, an `int` and a `size_t`. -/
def lengthSeen (l : BitVec 32) (name : CString) : Nat :=
  (l.signExtend 64 + BitVec.ofNat 64 name.length).toNat

/-- The loop over the mechanisms. `strcpy` ends the name with a NUL, and the comma takes its place. -/
def mechlistLoop (buflen : Nat) : List CString → Cells Char → Nat → BitVec 32 →
    Cells Char × Nat × BitVec 32
  | [], mem, ptr, l => (mem, ptr, l)
  | name :: names, mem, ptr, l =>
    if lengthSeen l name > buflen then (mem, ptr, l)
    else
      let mem := (mem.puts ptr (name ++ [nul])).put (ptr + name.length) ','
      mechlistLoop buflen names mem (ptr + name.length + 1) (l + BitVec.ofNat 32 (name.length + 1))

/-- `mechlist_build_string`, for a buffer that nothing has been written to. -/
def mechlistBuildString (names : List CString) (buflen : Nat) : Cells Char :=
  let (mem, ptr, l) := mechlistLoop buflen names Cells.blank 0 0#32
  mem.put (if l ≠ 0#32 then ptr - 1 else ptr) nul

def joined (names : List CString) : CString := [','].intercalate names

def listed (names : List CString) : CString := names.flatMap (· ++ [','])

def spent (names : List CString) : Nat := (names.map fun name => name.length + 1).sum

def count (names : List CString) : BitVec 32 := BitVec.ofNat 32 (spent names)

/-! ### Lengths -/

section lengths
variable {names taken : List CString} {name : CString}

theorem spent_concat (names : List CString) (name : CString) :
    spent (names ++ [name]) = spent names + (name.length + 1) := by
  rw [spent, spent, List.map_append, List.sum_append]
  rfl

theorem spent_prefix (h : taken <+: names) : spent taken ≤ spent names := by
  obtain ⟨rest, rfl⟩ := h
  rw [spent, spent, List.map_append, List.sum_append]
  exact Nat.le_add_right _ _

theorem spent_pos (h : names ≠ []) : 0 < spent names := by
  cases names with
  | nil => exact absurd rfl h
  | cons name names =>
    rw [spent, List.map_cons, List.sum_cons]
    omega

theorem length_listed (names : List CString) : (listed names).length = spent names := by
  rw [listed, spent, List.length_flatMap]
  simp

theorem length_joined (names : List CString) : (joined names).length = spent names - 1 := by
  by_cases h : names = []
  · rw [h]
    rfl
  · have hlength : (joined names).length + 1 = spent names := length_intercalate ',' h
    omega

theorem listed_eq (h : names ≠ []) : listed names = joined names ++ [','] := by
  induction names with
  | nil => exact absurd rfl h
  | cons name names ih =>
    cases names with
    | nil => simp [listed, joined]
    | cons name' names =>
      have hrest := ih (List.cons_ne_nil _ _)
      rw [listed] at hrest ⊢
      rw [joined] at hrest ⊢
      rw [List.flatMap_cons, hrest, List.intercalate_cons_cons]
      simp

theorem listed_concat (names : List CString) (name : CString) :
    listed (names ++ [name]) = listed names ++ name ++ [','] := by
  rw [listed, listed, List.flatMap_append]
  simp

theorem nul_notMem_listed (h : ∀ name ∈ names, nul ∉ name) : nul ∉ listed names := by
  intro hmem
  obtain ⟨name, hname, hin⟩ := List.mem_flatMap.mp hmem
  obtain hin | hcomma := List.mem_append.mp hin
  · exact h name hname hin
  · revert hcomma
    decide

theorem nul_notMem_joined (h : ∀ name ∈ names, nul ∉ name) : nul ∉ joined names := by
  by_cases hnil : names = []
  · rw [hnil]
    exact List.not_mem_nil
  · intro hmem
    apply nul_notMem_listed h
    rw [listed_eq hnil]
    exact List.mem_append_left _ hmem

end lengths

/-! ### The loop -/

theorem mechlistLoop_takes (buflen : Nat) (names taken : List CString) {mem : Cells Char}
    (h : mem.Holds (listed taken) (spent taken)) :
    ∃ more rest mem', names = more ++ rest ∧
      mechlistLoop buflen names mem (spent taken) (count taken) =
        (mem', spent (taken ++ more), count (taken ++ more)) ∧
      mem'.Holds (listed (taken ++ more)) (spent (taken ++ more)) ∧
      (∀ pre name post, more = pre ++ name :: post → lengthSeen (count (taken ++ pre)) name ≤ buflen) ∧
      ∀ name post, rest = name :: post → buflen < lengthSeen (count (taken ++ more)) name := by
  induction names generalizing taken mem with
  | nil =>
    refine ⟨[], [], mem, rfl, by rw [List.append_nil]; rfl, by rwa [List.append_nil], ?_, ?_⟩
    · intro pre name post heq
      simp at heq
    · intro name post heq
      cases heq
  | cons name names ih =>
    rw [mechlistLoop]
    by_cases hstop : lengthSeen (count taken) name > buflen
    · rw [if_pos hstop]
      refine ⟨[], name :: names, mem, rfl, by rw [List.append_nil], by rwa [List.append_nil], ?_, ?_⟩
      · intro pre name' post heq
        simp at heq
      · intro name' post heq
        obtain ⟨rfl, -⟩ := List.cons.inj heq
        rwa [List.append_nil]
    · have hmem : ((mem.puts (spent taken) (name ++ [nul])).put (spent taken + name.length) ',').Holds
          (listed (taken ++ [name])) (spent (taken ++ [name])) := by
        have hcopied := (h.puts name).put ','
        have hplace : (listed taken ++ name).length = spent taken + name.length := by
          rw [List.length_append, length_listed]
        rw [hplace, ← listed_concat, length_listed] at hcopied
        rw [Cells.puts_append, Cells.puts, Cells.puts, Cells.put_put]
        refine hcopied.widen ?_
        rw [spent_concat]
        omega
      have hspent : spent (taken ++ [name]) = spent taken + name.length + 1 := by
        rw [spent_concat, Nat.add_assoc]
      have hcount : count (taken ++ [name]) = count taken + BitVec.ofNat 32 (name.length + 1) := by
        rw [count, count, spent_concat, BitVec.ofNat_add]
      obtain ⟨more, rest, mem', hnames, hloop, hholds, haccepted, hrejected⟩ := ih _ hmem
      rw [hspent, hcount, List.append_assoc, List.singleton_append] at hloop
      rw [List.append_assoc, List.singleton_append] at hholds hrejected
      rw [if_neg hstop]
      refine ⟨name :: more, rest, mem', by rw [hnames]; rfl, hloop, hholds, ?_, hrejected⟩
      intro pre name' post heq
      cases pre with
      | nil =>
        obtain ⟨rfl, -⟩ := List.cons.inj heq
        rw [List.append_nil]
        omega
      | cons p pre =>
        obtain ⟨rfl, htail⟩ := List.cons.inj heq
        have hseen := haccepted pre name' post htail
        rwa [List.append_assoc, List.singleton_append] at hseen

/-! ### The longest front that fits -/

structure LongestFit (names : List CString) (buflen : Nat) (taken : List CString) : Prop where
  isPrefix : taken <+: names
  fits : (joined taken).length < buflen
  longest : ∀ other, other <+: names → (joined other).length < buflen → other.length ≤ taken.length

structure FitsBuffer (names : List CString) (buflen : Nat) (mem : Cells Char) : Prop where
  within : ∀ i ≥ buflen, mem i = none
  text : ∃ taken, LongestFit names buflen taken ∧ mem.Reads nul (joined taken)

/-- The running length lets a name pass if and only if the name fits behind those before it, and it is
not zero where a comma has to go. -/
structure CountedRight (names : List CString) (buflen : Nat) : Prop where
  judged : ∀ taken name, taken ++ [name] <+: names → (joined taken).length < buflen →
    (lengthSeen (count taken) name ≤ buflen ↔ (joined (taken ++ [name])).length < buflen)
  comma : ∀ taken, LongestFit names buflen taken → taken ≠ [] → count taken ≠ 0#32

structure Stops (names : List CString) (buflen : Nat) (taken : List CString) : Prop where
  isPrefix : taken <+: names
  accepted : ∀ pre name, pre ++ [name] <+: taken → lengthSeen (count pre) name ≤ buflen
  rejected : ∀ name, taken ++ [name] <+: names → buflen < lengthSeen (count taken) name

section fits
variable {names taken other : List CString} {name : CString} {buflen : Nat} {mem : Cells Char}

theorem joined_le (h : taken <+: names) : (joined taken).length ≤ (joined names).length := by
  have hspent := spent_prefix h
  rw [length_joined, length_joined]
  omega

theorem prefix_or (h : taken <+: names) (h' : other <+: names) (hle : taken.length ≤ other.length) :
    taken = other ∨ ∃ name, taken ++ [name] <+: other := by
  obtain ⟨more, rfl⟩ := List.prefix_of_prefix_length_le h h' hle
  cases more with
  | nil => exact .inl (List.append_nil _).symm
  | cons name more => exact .inr ⟨name, more, by simp⟩

theorem LongestFit.unique (h : LongestFit names buflen taken) (h' : LongestFit names buflen other) :
    taken = other := by
  obtain heq | ⟨name, hnext⟩ :=
    prefix_or h.isPrefix h'.isPrefix (h'.longest _ h.isPrefix h.fits)
  · exact heq
  · have hle := hnext.length_le
    have hmost := h.longest _ h'.isPrefix h'.fits
    rw [List.length_append, List.length_singleton] at hle
    omega

theorem mechlistBuildString_eq (names : List CString) (buflen : Nat) :
    ∃ taken, ∃ mem : Cells Char, Stops names buflen taken ∧ mem.Holds (listed taken) (spent taken) ∧
      mechlistBuildString names buflen =
        mem.put (if count taken ≠ 0#32 then spent taken - 1 else spent taken) nul := by
  obtain ⟨taken, rest, mem, hnames, hloop, hholds, haccepted, hrejected⟩ :=
    mechlistLoop_takes buflen names [] Cells.holds_blank
  rw [List.nil_append] at hloop hholds hrejected
  refine ⟨taken, mem, ⟨⟨rest, hnames.symm⟩, ?_, ?_⟩, hholds, ?_⟩
  · rintro pre name ⟨post, hpost⟩
    exact haccepted pre name post (by rw [← hpost]; simp)
  · rintro name ⟨post, hpost⟩
    rw [hnames, List.append_assoc] at hpost
    exact hrejected name post (List.append_cancel_left hpost).symm
  · have hstart : mechlistLoop buflen names Cells.blank 0 0#32 = (mem, spent taken, count taken) := hloop
    rw [mechlistBuildString, hstart]

theorem reads_joined (h : mem.Holds (listed taken) (spent taken)) :
    (mem.put (spent taken - 1) nul).Reads nul (joined taken) := by
  rw [← length_joined]
  by_cases hnil : taken = []
  · rw [hnil] at h ⊢
    exact h.reads nul
  · rw [listed_eq hnil] at h
    exact h.prefix_holds.reads nul

theorem reads_listed (h : mem.Holds (listed taken) (spent taken)) :
    (mem.put (spent taken) nul).Reads nul (listed taken) := by
  rw [← length_listed]
  exact h.reads nul

theorem Stops.front_fits (h : Stops names buflen taken) (hlen : 1 ≤ buflen)
    (hright : CountedRight names buflen) (hfront : other <+: taken) : (joined other).length < buflen := by
  induction other using List.reverseRecOn with
  | nil => exact hlen
  | append_singleton pre name ih =>
    have hpre := ih ((List.prefix_append _ _).trans hfront)
    exact (hright.judged pre name (hfront.trans h.isPrefix) hpre).mp (h.accepted pre name hfront)

theorem Stops.longestFit (h : Stops names buflen taken) (hlen : 1 ≤ buflen)
    (hright : CountedRight names buflen) : LongestFit names buflen taken := by
  have hfits := h.front_fits hlen hright (List.prefix_refl taken)
  refine ⟨h.isPrefix, hfits, fun other hother hfit => ?_⟩
  by_contra hlonger
  obtain rfl | ⟨name, hnext⟩ := prefix_or h.isPrefix hother (by omega)
  · omega
  · have hin := hnext.trans hother
    have hle := joined_le hnext
    have hpass := (hright.judged taken name hin hfits).mpr (by omega)
    have hturned := h.rejected name hin
    omega

theorem Stops.countedRight (h : Stops names buflen taken) (hlongest : LongestFit names buflen taken)
    (hcomma : taken ≠ [] → count taken ≠ 0#32) : CountedRight names buflen := by
  refine ⟨fun other name hother hfit => ?_, fun other hother hne => ?_⟩
  · have hin := (List.prefix_append _ _).trans hother
    obtain rfl | ⟨name', hnext⟩ := prefix_or hin h.isPrefix (hlongest.longest _ hin hfit)
    · have hturned := h.rejected name hother
      refine iff_of_false (by omega) fun hfits => ?_
      have hmost := hlongest.longest _ hother hfits
      rw [List.length_append, List.length_singleton] at hmost
      omega
    · have hsame : other ++ [name'] = other ++ [name] := by
        apply List.IsPrefix.eq_of_length
          (List.prefix_of_prefix_length_le (hnext.trans h.isPrefix) hother _)
        · simp
        · simp
      rw [hsame] at hnext
      have hle := joined_le hnext
      have hfits := hlongest.fits
      exact iff_of_true (h.accepted other name hnext) (by omega)
  · rw [hother.unique hlongest] at hne ⊢
    exact hcomma hne

theorem Stops.longest_of_fits (h : Stops names buflen taken)
    (hnul : ∀ name ∈ names, nul ∉ name) (hholds : mem.Holds (listed taken) (spent taken))
    (hfits : FitsBuffer names buflen
      (mem.put (if count taken ≠ 0#32 then spent taken - 1 else spent taken) nul)) :
    LongestFit names buflen taken ∧ (taken ≠ [] → count taken ≠ 0#32) := by
  obtain ⟨most, hmost, hreads⟩ := hfits.text
  have hfree : ∀ {front : List CString}, front <+: names → nul ∉ joined front ∧ nul ∉ listed front :=
    fun hfront => ⟨nul_notMem_joined fun name hname => hnul name (hfront.subset hname),
      nul_notMem_listed fun name hname => hnul name (hfront.subset hname)⟩
  have hwithin : ∀ {text : CString}, Cells.Reads nul
      (mem.put (if count taken ≠ 0#32 then spent taken - 1 else spent taken) nul) text →
      text.length < buflen := by
    intro text htext
    by_contra hout
    exact htext.written (Nat.le_refl _) (hfits.within _ (by omega))
  have hjoined := length_joined taken
  have hmostLength := length_joined most
  by_cases hcount : count taken = 0#32
  · -- the NUL stands behind the last comma
    rw [if_neg (not_not_intro hcount)] at hreads hwithin
    have hlisted := reads_listed hholds
    have hsame := hreads.unique hlisted (hfree hmost.isPrefix).1 (hfree h.isPrefix).2
    have hlength := length_listed taken
    have hroom := hwithin hlisted
    obtain rfl | ⟨name, hnext⟩ := prefix_or h.isPrefix hmost.isPrefix
      (hmost.longest _ h.isPrefix (by omega))
    · refine ⟨hmost, fun hne => ?_⟩
      have hpos := spent_pos hne
      rw [hsame] at hjoined
      omega
    · have hturned := h.rejected name (hnext.trans hmost.isPrefix)
      have hle := spent_prefix hnext
      rw [spent_concat] at hle
      rw [hsame] at hmostLength
      have hempty : name = [] := List.length_eq_zero_iff.mp (by omega)
      rw [hcount, hempty] at hturned
      exact absurd hturned (Nat.not_lt_zero _)
  · rw [if_pos hcount] at hreads hwithin
    have hread := reads_joined hholds
    have hsame := hreads.unique hread (hfree hmost.isPrefix).1 (hfree h.isPrefix).1
    have hroom := hwithin hread
    refine ⟨?_, fun _ => hcount⟩
    obtain rfl | ⟨name, hnext⟩ := prefix_or h.isPrefix hmost.isPrefix
      (hmost.longest _ h.isPrefix hroom)
    · exact hmost
    · have hle := spent_prefix hnext
      rw [spent_concat] at hle
      rw [hsame] at hmostLength
      have hzero : spent taken = 0 := by omega
      rw [count, hzero] at hcount
      exact absurd rfl hcount

theorem fitsBuffer_of_longest (hlongest : LongestFit names buflen taken)
    (hcomma : taken ≠ [] → count taken ≠ 0#32) (hholds : mem.Holds (listed taken) (spent taken)) :
    FitsBuffer names buflen
      (mem.put (if count taken ≠ 0#32 then spent taken - 1 else spent taken) nul) := by
  have hplace : (if count taken ≠ 0#32 then spent taken - 1 else spent taken) = spent taken - 1 := by
    by_cases hnil : taken = []
    · rw [hnil]
      rfl
    · rw [if_pos (hcomma hnil)]
  have hfits := hlongest.fits
  rw [length_joined] at hfits
  rw [hplace]
  refine ⟨fun i hi => ?_, taken, hlongest, reads_joined hholds⟩
  rw [Cells.put_other (by omega)]
  exact hholds.beyond i (by omega)

theorem lengthSeen_small (h : spent taken < 2 ^ 31) (hname : name.length < 2 ^ 63) :
    lengthSeen (count taken) name = spent taken + name.length := by
  have hint : (count taken).toInt = (spent taken : Int) := by
    rw [count, BitVec.toInt_ofNat']
    exact Int.bmod_eq_of_le (by omega) (by omega)
  have hsum : ((count taken).signExtend 64).toNat = spent taken := by
    rw [BitVec.toNat_signExtend, count, BitVec.toNat_setWidth, BitVec.toNat_ofNat]
    have hmsb : (BitVec.ofNat 32 (spent taken)).msb = false := by
      rw [BitVec.msb_eq_false_iff_two_mul_lt, BitVec.toNat_ofNat]
      omega
    rw [hmsb]
    simp
    omega
  rw [lengthSeen, BitVec.toNat_add, hsum, BitVec.toNat_ofNat]
  omega

theorem count_ne_zero (h : spent taken < 2 ^ 32) (hne : taken ≠ []) : count taken ≠ 0#32 := by
  intro hzero
  have hpos := spent_pos hne
  have hwraps := congrArg BitVec.toNat hzero
  rw [count, BitVec.toNat_ofNat, BitVec.toNat_zero, Nat.mod_eq_of_lt h] at hwraps
  omega

/-- Up to the largest `int`, a name is misjudged if and only if its last letter would come right before
the end of the buffer. -/
theorem countedRight_iff (hlen : 1 ≤ buflen) (hbound : buflen < 2 ^ 31)
    (hnames : ∀ name ∈ names, name.length < 2 ^ 63) :
    CountedRight names buflen ↔
      ∀ taken, taken <+: names → taken ≠ [] → (joined taken).length ≠ buflen := by
  have hseen : ∀ taken name, taken ++ [name] <+: names → spent taken ≤ buflen →
      lengthSeen (count taken) name = spent taken + name.length := by
    intro taken name hin hle
    exact lengthSeen_small (by omega) (hnames name (hin.subset (by simp)))
  constructor
  · intro h taken hin hne hedge
    obtain ⟨pre, name, rfl⟩ := List.eq_nil_or_concat' taken |>.resolve_left hne
    rw [length_joined, spent_concat] at hedge
    have hjudged := h.judged pre name hin (by rw [length_joined]; omega)
    rw [hseen pre name hin (by omega), length_joined, spent_concat] at hjudged
    omega
  · intro h
    refine ⟨fun taken name hin hfits => ?_, fun taken hlongest hne => ?_⟩
    · have hedge := h _ hin (by simp)
      rw [length_joined] at hfits
      rw [length_joined, spent_concat] at hedge ⊢
      rw [hseen taken name hin (by omega)]
      omega
    · have hfits := hlongest.fits
      rw [length_joined] at hfits
      exact count_ne_zero (by omega) hne

end fits

/-! ### The text that `sasl_input` answers with -/

theorem mechlist_fits_iff (names : List CString) (buflen : Nat) (hnul : ∀ name ∈ names, nul ∉ name)
    (hlen : 1 ≤ buflen) :
    (FitsBuffer names buflen (mechlistBuildString names buflen) ↔ CountedRight names buflen) ∧
      (buflen < 2 ^ 31 → (∀ name ∈ names, name.length < 2 ^ 63) →
        (CountedRight names buflen ↔
          ∀ taken, taken <+: names → taken ≠ [] → (joined taken).length ≠ buflen)) := by
  obtain ⟨taken, mem, hstops, hholds, heq⟩ := mechlistBuildString_eq names buflen
  refine ⟨?_, fun hbound hnames => countedRight_iff hlen hbound hnames⟩
  rw [heq]
  constructor
  · intro hfits
    obtain ⟨hlongest, hcomma⟩ := hstops.longest_of_fits hnul hholds hfits
    exact hstops.countedRight hlongest hcomma
  · intro hright
    have hlongest := hstops.longestFit hlen hright
    exact fitsBuffer_of_longest hlongest (hright.comma taken hlongest) hholds

theorem mechlist_fits_two :
    FitsBuffer ["PLAIN".toList, "EXTERNAL".toList] 400
      (mechlistBuildString ["PLAIN".toList, "EXTERNAL".toList] 400) := by
  have h := mechlist_fits_iff ["PLAIN".toList, "EXTERNAL".toList] 400
    (by decide) (by decide)
  apply h.1.mpr
  apply (h.2 (by decide) (by decide)).mpr
  intro taken hin _
  have hle := joined_le hin
  have hall : (joined ["PLAIN".toList, "EXTERNAL".toList]).length = 14 := by decide
  omega

/-- Twenty names whose text is as long as the buffer of `sasl_mechanisms`. -/
def twentyNames : List CString := List.replicate 19 (List.replicate 20 'M') ++ [['X']]

theorem mechlist_overruns : ¬ FitsBuffer twentyNames 400 (mechlistBuildString twentyNames 400) := by
  intro h
  have hbehind : mechlistBuildString twentyNames 400 400 = some nul := by decide +kernel
  rw [h.within 400 (Nat.le_refl _)] at hbehind
  cases hbehind

end ChatServices.SaslMechlist

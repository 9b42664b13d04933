import ChatServices.Lib.Letters
import ChatServices.ChanServ.Channels

/-! Flags as the database has them: the letters of account and channel flags, and access levels
as flag strings. -/
namespace ChatServices.Storage
open ChatServices.Lib ChatServices.Lib.Mask ChatServices.Text ChatServices.ChanServ
open ChatServices.ChanServ.Channels

def muHold : Flags := 0x1#32
def muHidemail : Flags := 0x10#32
def muNomemo : Flags := 0x40#32
def muEmailmemos : Flags := 0x80#32
def muCryptpass : Flags := 0x100#32
def muEnforce : Flags := 0x800#32
def muUsePrivmsg : Flags := 0x1000#32
def muPrivate : Flags := 0x2000#32
def muQuietchg : Flags := 0x4000#32
def muNogreet : Flags := 0x8000#32
def muNevergroup : Flags := 0x20000#32
def muNotifyset : Flags := 0x200000#32
def muEmailnotify : Flags := 0x800000#32

def mcVerbose : Flags := 0x10#32
def mcKeeptopic : Flags := 0x40#32
def mcVerboseOps : Flags := 0x80#32
def mcTopiclock : Flags := 0x100#32
def mcPrivate : Flags := 0x400#32
def mcNosync : Flags := 0x800#32
def mcAntiflood : Flags := 0x1000#32

abbrev GFlags := List (Char × Flags)

def muFlags : GFlags :=
  [('h', muHold), ('n', muNeverop), ('o', muNoop), ('W', muWaitauth), ('s', muHidemail),
   ('m', muNomemo), ('e', muEmailmemos), ('C', muCryptpass), ('b', muNoburstlogin),
   ('E', muEnforce), ('P', muUsePrivmsg), ('p', muPrivate), ('Q', muQuietchg), ('g', muNogreet),
   ('r', muRegnolimit), ('N', muNevergroup), ('A', muStrictaccess), ('a', muNotifyacl),
   ('$', muNotifyset), ('e', muEmailnotify), ('S', muNopassword)]

def mcFlags : GFlags :=
  [('a', mcPubacl), ('h', mcHold), ('o', mcNoop), ('l', mcLimitflags), ('z', mcSecure),
   ('v', mcVerbose), ('r', mcRestricted), ('k', mcKeeptopic), ('e', mcVerboseOps),
   ('t', mcTopiclock), ('g', mcGuard), ('p', mcPrivate), ('n', mcNosync), ('f', mcAntiflood)]

def gflagsTostr (rows : GFlags) (flags : Flags) : CString := '+' :: Letters.encode rows flags

def gflagFromchar (rows : GFlags) (f : Char) (res : Flags) : Option Flags :=
  if f = '+' then some res else (Letters.value rows f).map (res ||| ·)

/-- The loop of `gflags_fromstr`: it stops at a letter that the table lacks. -/
def gflagsFrom (rows : GFlags) : Flags → CString → Flags × Bool
  | res, [] => (res, true)
  | res, f :: s =>
    match gflagFromchar rows f res with
    | some res => gflagsFrom rows res s
    | none => (res, false)

def gflagsFromstr (rows : GFlags) (s : CString) : Flags × Bool := gflagsFrom rows 0#32 s

/-! ### Reading flags back -/

theorem gflagsFrom_letters {rows : GFlags} {cs : List Char} (hplus : '+' ∉ cs)
    (hcs : ∀ c ∈ cs, (Letters.value rows c).isSome) (res : Flags) : gflagsFrom rows res cs =
      (cs.foldl (fun m c => m ||| (Letters.value rows c).getD 0#32) res, true) := by
  induction cs generalizing res with
  | nil => rfl
  | cons c cs ih =>
    have hc : c ≠ '+' := fun heq => hplus (heq ▸ List.mem_cons_self)
    obtain ⟨v, hv⟩ := Option.isSome_iff_exists.mp (hcs c List.mem_cons_self)
    have htail := ih (fun h => hplus (List.mem_cons_of_mem c h))
      (fun d hd => hcs d (List.mem_cons_of_mem c hd)) (res ||| v)
    rw [gflagsFrom, gflagFromchar, if_neg hc, hv, List.foldl_cons, hv]
    exact htail

theorem gflagsFromstr_tostr {rows : GFlags} (hplus : '+' ∉ rows.map Prod.fst) (flags : Flags) :
    gflagsFromstr rows (gflagsTostr rows flags) =
      (Letters.decode rows (Letters.encode rows flags), true) := by
  have hletters : ∀ c ∈ Letters.encode rows flags, c ∈ rows.map Prod.fst := by
    intro c hc
    obtain ⟨r, hr, -, rfl⟩ := Letters.mem_encode.mp hc
    exact List.mem_map_of_mem hr
  have hvalue : ∀ c ∈ Letters.encode rows flags, (Letters.value rows c).isSome := by
    intro c hc
    obtain ⟨r, hr, rfl⟩ := List.mem_map.mp (hletters c hc)
    rw [Letters.value, Option.isSome_map, List.find?_isSome]
    exact ⟨r, hr, by simp⟩
  have hstep : gflagsFromstr rows (gflagsTostr rows flags) =
      gflagsFrom rows 0#32 (Letters.encode rows flags) := by
    simp [gflagsFromstr, gflagsTostr, gflagsFrom, gflagFromchar]
  rw [hstep, gflagsFrom_letters (fun h => hplus (hletters '+' h)) hvalue]
  rfl

theorem single_of_twoPow {v : Flags} (h : ∃ k ∈ List.range 32, v = BitVec.twoPow 32 k) :
    ∃ k, ∀ i, Has v i ↔ i = k := by
  obtain ⟨k, hk, rfl⟩ := h
  have hlt : k < 32 := List.mem_range.mp hk
  refine ⟨k, fun i => ?_⟩
  rw [has_twoPow]
  omega

theorem oneToOne_of_twoPow {rows : GFlags} (hletters : (rows.map Prod.fst).Nodup)
    (hbits : ∀ r ∈ rows, ∃ k ∈ List.range 32, r.2 = BitVec.twoPow 32 k) :
    Letters.OneToOne rows where
  letters := hletters
  single r hr := single_of_twoPow (hbits r hr)

theorem mcFlags_oneToOne : Letters.OneToOne mcFlags :=
  oneToOne_of_twoPow (by decide) (by decide)

theorem mcFlags_readback (flags : Flags) : (gflagsFromstr mcFlags (gflagsTostr mcFlags flags)).1 =
    flags &&& Letters.union mcFlags := by
  rw [gflagsFromstr_tostr (by decide), Letters.decode_encode mcFlags_oneToOne]

theorem muFlags_readback (flags : Flags) : gflagsFromstr muFlags (gflagsTostr muFlags flags) =
    (flags &&& ~~~muEmailnotify &&& Letters.union muFlags |||
      (if test flags muEmailnotify then muEmailmemos else 0#32), true) := by
  have hvalue : ∀ r ∈ muFlags, Letters.value muFlags r.1 =
      some (if r.2 = muEmailnotify then muEmailmemos else r.2) := by decide
  have hbits : ∀ r ∈ muFlags, ∃ k ∈ List.range 32, r.2 = BitVec.twoPow 32 k := by decide
  have hdisjoint : ∀ r ∈ muFlags, r.2 ≠ muEmailnotify → r.2 &&& muEmailnotify = 0#32 := by decide
  rw [gflagsFromstr_tostr (by decide)]
  congr 1
  apply Mask.ext
  intro i
  rw [Letters.has_decode_encode, has_or, has_and, has_and, has_not, Letters.has_union]
  constructor
  · rintro ⟨r, hr, htest, v, hv, hi⟩
    rw [hvalue r hr, Option.some_inj] at hv
    subst hv
    split_ifs at hi with heq
    · right
      rw [if_pos (heq ▸ htest)]
      exact hi
    · obtain ⟨k, hk⟩ := single_of_twoPow (hbits r hr)
      refine .inl ⟨⟨(Letters.test_single hk hi).mp htest, Has.lt hi, fun hnotify => ?_⟩, r, hr, hi⟩
      exact (eq_zero_iff _).mp (hdisjoint r hr heq) i ((has_and _ _ i).mpr ⟨hi, hnotify⟩)
  · rintro (⟨⟨hflag, -, hnotify⟩, r, hr, hi⟩ | hi)
    · obtain ⟨k, hk⟩ := single_of_twoPow (hbits r hr)
      have hother : r.2 ≠ muEmailnotify := fun heq => hnotify (heq ▸ hi)
      exact ⟨r, hr, (Letters.test_single hk hi).mpr hflag, r.2, by rw [hvalue r hr, if_neg hother], hi⟩
    · split_ifs at hi with htest
      · exact ⟨('e', muEmailnotify), by decide, htest, muEmailmemos, by decide, hi⟩
      · exact absurd hi (has_zero i)

/-! ### Access levels -/

section levels
variable (fc : FlagConfig)

def levelRows : GFlags := fc.table.map fun r => (r.ch, r.value)

theorem levelRows_eq : levelRows fc = levelRows ⟨fc.successorAcl, true, true, true⟩ := rfl

theorem levelRows_oneToOne : Letters.OneToOne (levelRows fc) := by
  rw [levelRows_eq]
  apply oneToOne_of_twoPow
  · cases fc.successorAcl <;> decide
  · cases fc.successorAcl <;> decide

theorem flagChars_eq (level : Flags) : flagChars fc level = Letters.encode (levelRows fc) level := by
  rw [flagChars, Letters.encode, levelRows, List.filter_map, List.map_map]
  have htest : (fun r : FlagRow => test r.value level) =
      (fun r : Char × Flags => test level r.2) ∘ fun r : FlagRow => (r.ch, r.value) := by
    funext r
    exact test_comm _ _
  rw [htest]
  rfl

theorem value_eq (c : Char) : fc.value c = (Letters.value (levelRows fc) c).getD 0#32 := by
  rw [FlagConfig.value, Letters.value, levelRows, List.find?_map, Option.map_map]
  rfl

theorem toBitmaskFrom_letters {cs : List Char} (hcs : ∀ c ∈ cs, c ∉ ['+', '-', '=', '*'])
    (level : Flags) : toBitmaskFrom fc .add level cs =
      cs.foldl (fun m c => m ||| (Letters.value (levelRows fc) c).getD 0#32) level &&& fc.caAll := by
  induction cs generalizing level with
  | nil => rfl
  | cons c cs ih =>
    have hc := hcs c List.mem_cons_self
    simp only [List.mem_cons, List.not_mem_nil, or_false, not_or] at hc
    have htail := ih (fun d hd => hcs d (List.mem_cons_of_mem c hd)) (level ||| fc.value c)
    rw [toBitmaskFrom, if_neg hc.1, if_neg hc.2.1, if_neg hc.2.2.1, if_neg hc.2.2.2, List.foldl_cons,
      ← value_eq]
    exact htail

theorem levelRows_letters : ∀ c ∈ (levelRows fc).map Prod.fst, c ∉ ['+', '-', '=', '*'] := by
  have hall : ((levelRows fc).map Prod.fst).all (fun c => decide (c ∉ ['+', '-', '=', '*'])) = true := by
    rw [levelRows_eq]
    cases fc.successorAcl <;> decide
  intro c hc
  simpa only [decide_eq_true_eq] using List.all_eq_true.mp hall c hc

theorem caAll_sub_table : Sub fc.caAll (Letters.union (levelRows fc)) := by
  obtain ⟨successor, halfops, protect, owner⟩ := fc
  cases successor <;> cases halfops <;> cases protect <;> cases owner <;> decide

theorem flagsToBitmask_bitmaskToFlags {level : Flags} (h : Sub level fc.caAll) :
    flagsToBitmask fc (bitmaskToFlags fc level) 0#32 = level := by
  have hcs : ∀ c ∈ Letters.encode (levelRows fc) level, c ∉ ['+', '-', '=', '*'] := by
    intro c hc
    obtain ⟨r, hr, -, rfl⟩ := Letters.mem_encode.mp hc
    exact levelRows_letters fc r.1 (List.mem_map_of_mem hr)
  have hread : flagsToBitmask fc (bitmaskToFlags fc level) 0#32 =
      Letters.decode (levelRows fc) (Letters.encode (levelRows fc) level) &&& fc.caAll := by
    rw [flagsToBitmask, bitmaskToFlags, toBitmaskFrom, if_pos rfl, flagChars_eq,
      toBitmaskFrom_letters fc hcs]
    rfl
  rw [hread, Letters.decode_encode (levelRows_oneToOne fc)]
  apply Mask.ext
  intro i
  simp only [has_and]
  constructor
  · exact fun hi => hi.1.1
  · exact fun hi => ⟨⟨hi, (caAll_sub_table fc).has (h.has hi)⟩, h.has hi⟩

end levels
end ChatServices.Storage

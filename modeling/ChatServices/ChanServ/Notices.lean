import ChatServices.ChanServ.Command

/-! What the loops of ROLE and TEMPLATE say of each entry that they change, and TEMPLATE of itself.
`myuser_notice` is given the finished text as its format. -/
namespace ChatServices.ChanServ
open ChatServices.Lib ChatServices.Lib.Mask ChatServices.Text

def bold (s : CString) : CString := '\x02' :: (s ++ ['\x02'])

/-- `myuser_notice (chansvs.nick, mu, text)` formats before it looks for somebody to tell. -/
def noticeCrashes (text : CString) : Bool := (formatText text).isNone

def notifyacl (db : ChanDb) (mu : MyUserRef) : Bool :=
  (db.accounts.get mu).any fun a => test a.flags muNotifyacl

/-- `+F`, `+R` or `+s` -/
def isManagement (level : Flags) : Bool :=
  test level caFounder || test level caRecover || test level caSet

/-- The entries whose accounts a notice to the management goes to. The source is not told, and the
account that a change is about hears of it in a notice of its own. -/
def isTold (db : ChanDb) (smu tmu : Option MyUserRef) (e : Target × Flags) : Bool :=
  match e.1 with
  | .entity (.user mu) => tmu ≠ some mu && isManagement e.2 && smu ≠ some mu && notifyacl db mu
  | _ => false

section texts
variable (cfg : ChanConfig) (chan : MyChan) (source target flagstr : CString) (flags : Flags)

def templateSuffix : CString :=
  match getTemplateName cfg chan flags with
  | some name => " (TEMPLATE: ".toList ++ bold name ++ [')']
  | none => []

/-- The text of `notify_channel_acl_change`. With flags left, `flagstr` is in the buffer that
`bitmask_to_flags` has just written them to. -/
def channelAclText : CString :=
  truncate 256 <|
    if flags = 0#32 then
      bold source ++ " has set ".toList ++ bold flagstr ++ " and removed ".toList ++ bold target ++
        " from: ".toList ++ bold chan.name
    else
      bold source ++ " has set ".toList ++ bold (bitmaskToFlags cfg.flagConfig flags) ++
        " on ".toList ++ bold target ++ " in ".toList ++ bold chan.name ++
        " who now has the flags: ".toList ++ bold (bitmaskToFlags cfg.flagConfig flags) ++
        templateSuffix cfg chan flags

/-- The text of `notify_target_acl_change`. -/
def targetAclText : CString :=
  truncate 256 <|
    if flags = 0#32 then
      bold source ++ " has set ".toList ++ bold flagstr ++ " and removed you from: ".toList ++
        bold chan.name
    else
      bold source ++ " has set ".toList ++ bold (bitmaskToFlags cfg.flagConfig flags) ++
        " on you in ".toList ++ bold chan.name ++ " where you now have the flags: ".toList ++
        bold (bitmaskToFlags cfg.flagConfig flags) ++ templateSuffix cfg chan flags

end texts

def eventText (chan : MyChan) (desc : CString) : CString :=
  truncate 256 ("Channel Event on ".toList ++ bold chan.name ++ " - ".toList ++ desc)

/-- An account with a user logged in that is told of changes to its own flags. -/
def isNotified (db : ChanDb) (tmu : MyUserRef) : Bool :=
  (db.accounts.get tmu).any fun a => test a.flags muNotifyacl && a.logins ≠ []

/-- `notify_channel_acl_change` and `notify_target_acl_change` for the account `tmu`, with the
access list as it is then. -/
def aclNoticesCrash (cfg : ChanConfig) (db : ChanDb) (chan : MyChan) (rows : List (Target × Flags))
    (smu tmu : MyUserRef) (flagstr : CString) (flags : Flags) : Bool :=
  let source := (Entity.user smu).name db
  let target := (Entity.user tmu).name db
  rows.any (isTold db (some smu) (some tmu)) &&
      noticeCrashes (channelAclText cfg chan source target flagstr flags) ||
    isNotified db tmu && noticeCrashes (targetAclText cfg chan source flagstr flags)

/-- `notify_channel_misc_change` -/
def miscNoticesCrash (db : ChanDb) (chan : MyChan) (rows : List (Target × Flags))
    (smu : Option MyUserRef) (desc : CString) : Bool :=
  rows.any (isTold db smu none) && noticeCrashes (eventText chan desc)

/-- What `%` the text has stand in pairs `%%`. -/
def Plain (text : CString) : Prop := (formatText text).isSome

theorem not_noticeCrashes {text : CString} : noticeCrashes text = false ↔ Plain text := by
  simp [noticeCrashes, Plain, Option.isNone_eq_false_iff]

theorem and_noticeCrashes {b : Bool} {text : CString} :
    (b && noticeCrashes text) = false ↔ (b = true → Plain text) := by
  rw [Bool.and_eq_false_iff, not_noticeCrashes, ← Bool.not_eq_true, ← imp_iff_not_or]

theorem any_and_noticeCrashes {α : Type} {l : List α} {p : α → Bool} {text : CString} :
    (l.any p && noticeCrashes text) = false ↔ ∀ a ∈ l, p a = true → Plain text := by
  rw [and_noticeCrashes, List.any_eq_true]
  constructor
  · intro h a ha hp
    exact h ⟨a, ha, hp⟩
  · rintro h ⟨a, ha, hp⟩
    exact h a ha hp

/-- What the notices about one account rely on. -/
structure AclNoticesPlain (cfg : ChanConfig) (db : ChanDb) (chan : MyChan)
    (rows : List (Target × Flags)) (smu tmu : MyUserRef) (flagstr : CString) (flags : Flags) :
    Prop where
  management : ∀ e ∈ rows, isTold db (some smu) (some tmu) e = true →
    Plain (channelAclText cfg chan ((Entity.user smu).name db) ((Entity.user tmu).name db) flagstr
      flags)
  target : isNotified db tmu = true →
    Plain (targetAclText cfg chan ((Entity.user smu).name db) flagstr flags)

theorem aclNoticesCrash_eq_false {cfg : ChanConfig} {db : ChanDb} {chan : MyChan}
    {rows : List (Target × Flags)} {smu tmu : MyUserRef} {flagstr : CString} {flags : Flags} :
    aclNoticesCrash cfg db chan rows smu tmu flagstr flags = false ↔
      AclNoticesPlain cfg db chan rows smu tmu flagstr flags := by
  rw [aclNoticesCrash, Bool.or_eq_false_iff, any_and_noticeCrashes, and_noticeCrashes]
  exact ⟨fun h => ⟨h.1, h.2⟩, fun h => ⟨h.management, h.target⟩⟩

end ChatServices.ChanServ

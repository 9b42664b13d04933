import ChatServices.Lib.FirstMatch
import ChatServices.Lib.Registry
import ChatServices.Lib.Run
import ChatServices.Text

/-! Chanfix: the op records of each channel, the gather and expiry passes, and the database. -/
namespace ChatServices.ChanFix
open ChatServices.Text ChatServices.Lib ChatServices.Lib.Run ChatServices.Lib.FirstMatch

def USERLEN : Nat := 12
def HOSTLEN : Nat := 64
def CHANFIX_RETENTION_TIME : Int := 86400 * 28
def CHANFIX_EXPIRE_DIVISOR : UInt32 := 672

/-- `chanfix_oprecord_t`; `ref` stands for its address, `entity` for that of the account. -/
structure OpRecord where
  ref : Nat
  entity : Option Nat
  user : CString
  host : CString
  firstseen : Int
  lastevent : Int
  age : UInt32
  deriving DecidableEq, Repr

/-- `chanfix_channel_t`. -/
structure ChanfixChannel where
  name : CString
  ts : Int
  lastupdate : Int
  oprecords : List OpRecord
  deriving DecidableEq, Repr

structure User where
  uid : Nat
  user : CString
  vhost : CString
  deriving DecidableEq, Repr

structure ChanUser where
  user : User
  op : Bool
  deriving DecidableEq, Repr

/-- An entry of `chanlist`; `registered` is `mychan_find (ch->name) != NULL`. -/
structure Channel where
  name : CString
  ts : Int
  registered : Bool
  members : List ChanUser
  deriving DecidableEq, Repr

inductive Row where
  | cfchan (name : CString) (ts lastupdate : Int)
  | cfop (name entity user host : CString) (firstseen lastevent : Int) (age : UInt32)
  deriving DecidableEq, Repr

structure Account where
  ref : Nat
  name : CString
  deriving DecidableEq, Repr

structure Database where
  accounts : List Account
  rows : List Row

structure State where
  accounts : List Account
  login : Nat → Option Nat
  channels : Registry CString ChanfixChannel
  nextAccount : Nat
  next : Nat
  saved : Database

def init : State where
  accounts := []
  login := fun _ => none
  channels := Registry.empty
  nextAccount := 0
  next := 0
  saved := ⟨[], []⟩

inductive Event where
  | register (name : CString)
  | delete (account : Nat)
  | login (uid account : Nat)
  | logout (uid : Nat)
  | gather (now : Int) (chanlist : List Channel)
  | expire (now : Int)
  | save
  | reload
  deriving Repr

/-- What a run shows: an event counted for a record, a record freed by a pass, a channel
freed by a pass (as it was before it), and a freed account read. -/
inductive Obs where
  | event (orec : OpRecord)
  | removed (now : Int) (orec : OpRecord)
  | dropped (now : Int) (chan : ChanfixChannel)
  | readFreed (account : Nat)
  deriving DecidableEq, Repr

def State.live (s : State) (a : Nat) : Prop := a ∈ s.accounts.map Account.ref

instance (s : State) (a : Nat) : Decidable (s.live a) :=
  inferInstanceAs (Decidable (a ∈ s.accounts.map Account.ref))

def accountName (accounts : List Account) (a : Nat) : Option CString :=
  (accounts.find? (fun mu => mu.ref = a)).map Account.name

/-- `myentity_find`, as far as accounts go. -/
def myentityFind (cm : CaseMapping) (accounts : List Account) (name : CString) : Option Nat :=
  (accounts.find? (fun mu => irccaseEq cm mu.name name)).map Account.ref

section records
variable (cm : CaseMapping)

def OpRecord.matches (orec : OpRecord) (u : User) (myuser : Option Nat) : Bool :=
  (orec.entity.isSome && orec.entity = myuser) ||
    (irccaseEq cm orec.user u.user && irccaseEq cm orec.host u.vhost)

def chanfixOprecordFind (recs : List OpRecord) (u : User) (myuser : Option Nat) :
    Option OpRecord :=
  recs.find? (fun orec => orec.matches cm u myuser)

def chanfixOprecordCreate (ref : Nat) (now : Int) (u : User) (myuser : Option Nat) : OpRecord where
  ref := ref
  entity := myuser
  user := truncate USERLEN u.user
  host := truncate HOSTLEN u.vhost
  firstseen := now
  lastevent := now
  age := 1

def OpRecord.touch (now : Int) (myuser : Option Nat) (orec : OpRecord) : OpRecord :=
  { orec with
    age := orec.age + 1
    lastevent := now
    entity := orec.entity.or myuser }

def chanfixOprecordUpdate (ref : Nat) (now : Int) (u : User) (myuser : Option Nat)
    (chan : ChanfixChannel) : ChanfixChannel :=
  match chanfixOprecordFind cm chan.oprecords u myuser with
  | some _ =>
    { chan with
      oprecords := updateFirst (fun orec => orec.matches cm u myuser) (OpRecord.touch now myuser)
        chan.oprecords }
  | none =>
    { chan with
      oprecords := chan.oprecords ++ [chanfixOprecordCreate ref now u myuser]
      lastupdate := now }

end records

section passes
variable (cm : CaseMapping)

/-- `chanfix_channel_get`, else `chanfix_channel_create`. -/
def chanfixChannelGet (s : State) (ch : Channel) : State :=
  { s with
    channels := s.channels.insertNew (strcasecanon ch.name)
      { name := ch.name, ts := ch.ts, lastupdate := 0, oprecords := [] } }

def gatherMember (now : Int) (s : State) (v : CString × User) : State × List Obs :=
  let key := strcasecanon v.1
  let myuser := s.login v.2.uid
  ({ s with
      channels := s.channels.modify key (chanfixOprecordUpdate cm s.next now v.2 myuser)
      next := s.next + 1 },
    (((s.channels.find key).bind fun chan =>
      chanfixOprecordFind cm chan.oprecords v.2 myuser).map Obs.event).toList)

def Channel.opped (ch : Channel) : List (CString × User) :=
  (ch.members.filter ChanUser.op).map (fun cu => (ch.name, cu.user))

def gatherChannel (now : Int) (s : State) (ch : Channel) : State × List Obs :=
  if ch.registered then (s, []) else run (gatherMember cm now) (chanfixChannelGet s ch) ch.opped

def chanfixGather (now : Int) (s : State) (chanlist : List Channel) : State × List Obs :=
  run (gatherChannel cm now) s chanlist

def decrement (age : UInt32) : UInt32 := (age + CHANFIX_EXPIRE_DIVISOR - 1) / CHANFIX_EXPIRE_DIVISOR

def OpRecord.decay (orec : OpRecord) : OpRecord := { orec with age := orec.age - decrement orec.age }

def OpRecord.kept (now : Int) (orec : OpRecord) : Prop :=
  0 < orec.age ∧ now - orec.lastevent < CHANFIX_RETENTION_TIME

instance (now : Int) (orec : OpRecord) : Decidable (orec.kept now) :=
  inferInstanceAs (Decidable (0 < orec.age ∧ now - orec.lastevent < CHANFIX_RETENTION_TIME))

def ChanfixChannel.sweep (now : Int) (chan : ChanfixChannel) : ChanfixChannel :=
  { chan with oprecords := (chan.oprecords.map OpRecord.decay).filter (fun orec => orec.kept now) }

/-- `object_unref` is called where this does not hold of the channel after the loop. -/
def ChanfixChannel.stays (now : Int) (chan : ChanfixChannel) : Prop :=
  0 < chan.oprecords.length ∧ now - chan.lastupdate < CHANFIX_RETENTION_TIME

instance (now : Int) (chan : ChanfixChannel) : Decidable (chan.stays now) :=
  inferInstanceAs (Decidable (0 < chan.oprecords.length ∧
    now - chan.lastupdate < CHANFIX_RETENTION_TIME))

def expireChannel (now : Int) (chan : ChanfixChannel) : Option ChanfixChannel :=
  if (chan.sweep now).stays now then some (chan.sweep now) else none

def expireObs (now : Int) (chan : ChanfixChannel) : List Obs :=
  ((chan.oprecords.map OpRecord.decay).filter (fun orec => ¬ orec.kept now)).map
      (Obs.removed now) ++
    if (chan.sweep now).stays now then []
    else (chan.sweep now).oprecords.map (Obs.removed now) ++ [.dropped now chan]

def chanfixExpire (now : Int) (s : State) : State × List Obs :=
  ({ s with channels := s.channels.update (fun _ chan => expireChannel now chan) },
    s.channels.entries.flatMap (fun e => expireObs now e.2))

theorem chanfixExpire_obs {now : Int} {s : State} {o : Obs} (h : o ∈ (chanfixExpire now s).2) :
    (∃ orec, o = .removed now orec) ∨ ∃ chan, o = .dropped now chan := by
  rw [chanfixExpire] at h
  obtain ⟨e, -, ho⟩ := List.mem_flatMap.mp h
  rw [expireObs] at ho
  obtain hdecayed | hswept := List.mem_append.mp ho
  · obtain ⟨orec, -, rfl⟩ := List.mem_map.mp hdecayed
    exact .inl ⟨orec, rfl⟩
  · split_ifs at hswept
    · cases hswept
    · obtain hremoved | hdropped := List.mem_append.mp hswept
      · obtain ⟨orec, -, rfl⟩ := List.mem_map.mp hremoved
        exact .inl ⟨orec, rfl⟩
      · exact .inr ⟨e.2, List.mem_singleton.mp hdropped⟩

end passes

section database
variable (cm : CaseMapping)

def OpRecord.entityWord (accounts : List Account) (orec : OpRecord) : CString :=
  match orec.entity with
  | none => ['*']
  | some a => (accountName accounts a).getD []

def OpRecord.row (accounts : List Account) (name : CString) (orec : OpRecord) : Row :=
  .cfop name (orec.entityWord accounts) orec.user orec.host orec.firstseen orec.lastevent orec.age

def ChanfixChannel.rows (accounts : List Account) (chan : ChanfixChannel) : List Row :=
  .cfchan chan.name chan.ts chan.lastupdate :: chan.oprecords.map (OpRecord.row accounts chan.name)

def rowsOf (accounts : List Account) (channels : Registry CString ChanfixChannel) : List Row :=
  channels.entries.flatMap fun e => e.2.rows accounts

def State.freedReads (s : State) (chan : ChanfixChannel) : List Obs :=
  (chan.oprecords.filterMap OpRecord.entity).filterMap fun a =>
    if s.live a then none else some (.readFreed a)

/-- `write_chanfixdb`, after the accounts are written. -/
def writeChanfixdb (s : State) : State × List Obs :=
  ({ s with
      saved := ⟨s.accounts, rowsOf s.accounts s.channels⟩ },
    s.channels.entries.flatMap (fun e => s.freedReads e.2))

/-- `db_h_cfchan` and `db_h_cfop`. -/
def readRow (s : State) : Row → State
  | .cfchan name ts lastupdate =>
    { s with
      channels := s.channels.insertNew (strcasecanon name)
        { name := name, ts := ts, lastupdate := lastupdate, oprecords := [] } }
  | .cfop name entity user host firstseen lastevent age =>
    { s with
      channels := s.channels.modify (strcasecanon name) fun chan =>
        { chan with
          oprecords := chan.oprecords ++ [{
            ref := s.next
            entity := myentityFind cm s.accounts entity
            user := truncate USERLEN user
            host := truncate HOSTLEN host
            firstseen := firstseen
            lastevent := lastevent
            age := age }] }
      next := s.next + 1 }

def readDatabase (s : State) : State :=
  s.saved.rows.foldl (readRow cm)
    { s with accounts := s.saved.accounts, login := fun _ => none, channels := Registry.empty }

end database

section step
variable (cm : CaseMapping)

/-- `myuser_add`: a taken name adds nothing. -/
def myuserAdd (s : State) (name : CString) : State :=
  match myentityFind cm s.accounts name with
  | some _ => s
  | none =>
    { s with accounts := s.accounts ++ [⟨s.nextAccount, name⟩], nextAccount := s.nextAccount + 1 }

/-- `myuser_delete`: its users are logged out, op records are not looked at. -/
def myuserDelete (s : State) (a : Nat) : State :=
  { s with
    accounts := s.accounts.filter (fun mu => mu.ref ≠ a)
    login := fun uid => (s.login uid).filter (fun b => b ≠ a) }

def step (s : State) : Event → State × List Obs
  | .register name => (myuserAdd cm s name, [])
  | .delete a => (myuserDelete s a, [])
  | .login uid a =>
    (if s.live a then { s with login := fun v => if v = uid then some a else s.login v } else s, [])
  | .logout uid => ({ s with login := fun v => if v = uid then none else s.login v }, [])
  | .gather now chanlist => chanfixGather cm now s chanlist
  | .expire now => chanfixExpire now s
  | .save => writeChanfixdb s
  | .reload => (readDatabase cm s, [])

end step
end ChatServices.ChanFix

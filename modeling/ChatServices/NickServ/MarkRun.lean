import ChatServices.Lib.Run
import ChatServices.NickServ.MarkHooks

/-! Marks over runs: what somebody has said about a dropped account waits under its name, or is on
the account that has the name as a nick, until the name is registered again. -/
namespace ChatServices.NickServ.Marks
open ChatServices.Text ChatServices.Lib ChatServices.Lib.Run ChatServices.Lib.Rows
open ChatServices.Storage
open ChatServices.NickServ.Registration (NICKLEN NicksOk Names Nick Account nickKey freshAccount
  freshNick Entered mynickAdd mynickDelete myuserDelete myuserRename)

/-! ### The tables -/

structure TablesOk (cfg : Registration.Config) (s : Registration.State) : Prop where
  entities : Names cfg s.accounts s.entities
  owned : cfg.noNickOwnership = false → NicksOk cfg s
  unowned : cfg.noNickOwnership = true → s.nicks = .empty

section tables
variable {cfg : Registration.Config} {s : Registration.State} {a n : Nat} {mn : Nick}
  {account : CString}

theorem mem_listed {st : Store} (h : TablesOk cfg st.base) :
    a ∈ st.listed ↔ (st.base.accounts.find a).isSome := by
  rw [Store.listed, List.mem_map, Option.isSome_iff_exists]
  constructor
  · rintro ⟨e, he, rfl⟩
    have hfind := (Registry.find_eq_some_iff e.1 e.2 _).mpr he
    obtain ⟨mu, hmu, -⟩ := (h.entities e.1 e.2).mp hfind
    exact ⟨mu, hmu⟩
  · rintro ⟨mu, hmu⟩
    have hfind := (h.entities _ a).mpr ⟨mu, hmu, rfl⟩
    exact ⟨_, (Registry.find_eq_some_iff _ a _).mp hfind, rfl⟩

theorem nodup_listed {st : Store} (h : TablesOk cfg st.base) : st.listed.Nodup := by
  rw [Store.listed, List.nodup_map_iff_inj_on st.base.entities.nodup_entries]
  intro e he e' he' heq
  have hfind := (Registry.find_eq_some_iff e.1 e.2 _).mpr he
  have hfind' := (Registry.find_eq_some_iff e'.1 e'.2 _).mpr he'
  obtain ⟨mu, hmu, hkey⟩ := (h.entities e.1 e.2).mp hfind
  obtain ⟨mu', hmu', hkey'⟩ := (h.entities e'.1 e'.2).mp hfind'
  rw [heq, hmu'] at hmu
  obtain rfl := Option.some.inj hmu
  exact Prod.ext (hkey.symm.trans hkey') heq

theorem TablesOk.indexed (h : TablesOk cfg s) (hmn : s.nicks.objs.find n = some mn) :
    Registration.mynickFind cfg s mn.nick = some n := by
  cases hmode : cfg.noNickOwnership with
  | false => exact (h.owned hmode).indexed n mn hmn
  | true =>
    rw [h.unowned hmode] at hmn
    cases hmn

theorem TablesOk.owner (h : TablesOk cfg s) (hmn : s.nicks.objs.find n = some mn) :
    (s.accounts.find mn.owner).isSome := by
  cases hmode : cfg.noNickOwnership with
  | false => exact (h.owned hmode).owner n mn hmn
  | true =>
    rw [h.unowned hmode] at hmn
    cases hmn

theorem TablesOk.delete (h : TablesOk cfg s) {mu : Account} (hmu : s.accounts.find a = some mu) :
    ∃ s', myuserDelete cfg s a = some s' ∧ TablesOk cfg s' ∧ s'.accounts = s.accounts.erase a ∧
      ∀ n mn, s.nicks.objs.find n = some mn → mn.owner ≠ a → s'.nicks.objs.find n = some mn := by
  cases hmode : cfg.noNickOwnership with
  | false =>
    have hok := h.owned hmode
    obtain ⟨nicks, hdel, -, hobjs⟩ := hok.nicks.deleteAll (o := a)
    obtain ⟨s', hs', hok'⟩ := Registration.myuserDelete_nicksOk hok hmu
    have hs := hs'
    rw [myuserDelete, hmu, Option.bind_some, hdel, Option.map_some] at hs
    obtain rfl := Option.some.inj hs
    refine ⟨_, hs', ⟨hok'.entities, fun _ => hok', ?_⟩, rfl, fun n mn hmn hown => ?_⟩
    · intro hother
      rw [hmode] at hother
      cases hother
    · exact (hobjs n mn).mpr ⟨hmn, hown⟩
  | true =>
    have hempty := h.unowned hmode
    have hdel : s.nicks.deleteAll Nick.owner (nickKey cfg) a = some .empty := by
      rw [hempty]
      rfl
    refine ⟨_, by rw [myuserDelete, hmu, Option.bind_some, hdel, Option.map_some],
      ⟨h.entities.erase hmu, ?_, fun _ => rfl⟩, rfl, fun n mn hmn _ => ?_⟩
    · intro hother
      rw [hmode] at hother
      cases hother
    · rw [hempty] at hmn
      cases hmn

variable (email : CString) in
theorem TablesOk.enter (h : TablesOk cfg s) (hlen : account.length < NICKLEN)
    (hfree : (if cfg.noNickOwnership then (Registration.myuserFind cfg s account).isNone
      else (Registration.mynickFind cfg s account).isNone) = true) :
    ∃ mu base, mu.name = account ∧ Entered cfg s base (freshAccount cfg s) mu ∧
      Registration.myuserAdd cfg s account email =
        (freshAccount cfg s, base, [.gave (freshAccount cfg s) email]) := by
  cases hmode : cfg.noNickOwnership with
  | false =>
    rw [hmode] at hfree
    have hnick : Registration.mynickFind cfg s account = none := Option.isNone_iff_eq_none.mp hfree
    have hname : Registration.myuserFind cfg s account = none := by
      cases hfind : Registration.myuserFind cfg s account with
      | none => rfl
      | some b =>
        obtain ⟨n, mn, hn, -, -⟩ := (h.owned hmode).nick_of_name hfind
        rw [hnick] at hn
        cases hn
    exact Registration.myuserAdd_entered email hname hnick hlen
  | true =>
    rw [hmode] at hfree
    have hnick : Registration.mynickFind cfg s account = none := by
      rw [Registration.mynickFind, h.unowned hmode]
      rfl
    exact Registration.myuserAdd_entered email (Option.isNone_iff_eq_none.mp hfree) hnick hlen

def addOwnNick (cfg : Registration.Config) (base : Registration.State) (a : Nat)
    (name : CString) : Registration.State :=
  if cfg.noNickOwnership then base else mynickAdd cfg base a name

theorem TablesOk.entered (h : TablesOk cfg s) {base : Registration.State} {mu : Account}
    (he : Entered cfg s base a mu) : TablesOk cfg (addOwnNick cfg base a mu.name) ∧
      (addOwnNick cfg base a mu.name).accounts = s.accounts.insertNew a mu ∧
      ∀ n mn, s.nicks.objs.find n = some mn →
        (addOwnNick cfg base a mu.name).nicks.objs.find n = some mn := by
  cases hmode : cfg.noNickOwnership with
  | false =>
    have hok := he.nicksOk (h.owned hmode)
    have hbase : addOwnNick cfg base a mu.name = mynickAdd cfg base a mu.name := by
      rw [addOwnNick, hmode]
      rfl
    rw [hbase]
    refine ⟨⟨hok.entities, fun _ => hok, ?_⟩, ?_, fun n mn hmn => ?_⟩
    · intro hother
      rw [hmode] at hother
      cases hother
    · rw [he.mynickAdd]
      exact he.accounts
    · rw [he.mynickAdd, he.nicks]
      dsimp only
      rw [Owned.add, Registry.find_insertNew, hmn, Option.some_or]
  | true =>
    have hbase : addOwnNick cfg base a mu.name = base := by
      rw [addOwnNick, hmode]
      rfl
    rw [hbase]
    refine ⟨⟨?_, ?_, fun _ => ?_⟩, he.accounts, fun n mn hmn => ?_⟩
    · rw [he.accounts, he.entities]
      exact h.entities.insertNew mu he.fresh he.name
    · intro hother
      rw [hmode] at hother
      cases hother
    · rw [he.nicks]
      exact h.unowned hmode
    · rw [he.nicks]
      exact hmn

end tables

/-! ### What is kept -/

def Safe (s : Store) (name : CString) (note : Note) : Prop :=
  (∃ rm ∈ s.restoredMarkList name, rm.note = note) ∨
    ∃ n mn, s.base.nicks.objs.find n = some mn ∧ strcasecanon mn.nick = strcasecanon name ∧
      ∃ mm ∈ s.marks mn.owner, mm.note = note

structure StoreOk (cfg : Config) (s : Store) : Prop where
  tables : TablesOk cfg.base s.base
  apart : ∀ a b, (s.base.accounts.find a).isSome → (s.base.accounts.find b).isSome →
    s.uids a = s.uids b → a = b
  words : ∀ a, (s.base.accounts.find a).isSome → IsWord (s.uids a)
  lists : ListsOk s
  kept : ∀ d ∈ s.dropped, ∀ note ∈ d.2, Safe s d.1 note

section safe
variable {cfg : Config} {s s' : Store} {a n : Nat} {name nick : CString} {note : Note} {mn : Nick}

theorem restoredMarkList_congr (h : strcasecanon name = strcasecanon nick) :
    s.restoredMarkList name = s.restoredMarkList nick := by
  rw [Store.restoredMarkList, h, Store.restoredMarkList]

theorem Safe.mono (h : Safe s name note)
    (hnicks : ∀ n mn, s.base.nicks.objs.find n = some mn → s'.base.nicks.objs.find n = some mn)
    (hmarks : ∀ n mn, s.base.nicks.objs.find n = some mn → ∀ mm ∈ s.marks mn.owner,
      mm ∈ s'.marks mn.owner)
    (hlist : ∀ rm ∈ s.restoredMarkList name, rm ∈ s'.restoredMarkList name) :
    Safe s' name note := by
  obtain ⟨rm, hrm, hnote⟩ | ⟨n, mn, hmn, hkey, mm, hmm, hnote⟩ := h
  · exact .inl ⟨rm, hlist rm hrm, hnote⟩
  · exact .inr ⟨n, mn, hnicks n mn hmn, hkey, mm, hmarks n mn hmn mm hmm, hnote⟩

theorem StoreOk.grows (h : StoreOk cfg s) (hgrows : Grows s s') (hlists : ListsOk s') :
    StoreOk cfg s' := by
  obtain ⟨⟨hbase, huids, hdropped⟩, hmarks, hrestored⟩ := hgrows
  refine ⟨?_, ?_, ?_, hlists, ?_⟩
  · rw [hbase]
    exact h.tables
  · rw [hbase, huids]
    exact h.apart
  · rw [hbase, huids]
    exact h.words
  · intro d hd note hnote
    rw [hdropped] at hd
    apply (h.kept d hd note hnote).mono
    · intro n mn hmn
      rw [hbase]
      exact hmn
    · exact fun n mn _ => hmarks mn.owner
    · exact hrestored d.1

end safe

/-! ### Nicks that come and go -/

section nicks
variable {cfg : Config} {s : Store} {a n : Nat} {nick name : CString} {mn : Nick}

theorem takeNick_ok (h : StoreOk cfg s) (hmn : s.base.nicks.objs.find n = some mn)
    (hname : ∀ mu, s.base.accounts.find mn.owner = some mu →
      nickKey cfg.base mn ≠ Registration.nameKey cfg.base mu.name) :
    StoreOk cfg (takeNick cfg s mn.owner n mn.nick) := by
  cases hmode : cfg.base.noNickOwnership with
  | true =>
    rw [h.tables.unowned hmode] at hmn
    cases hmn
  | false =>
    have hok := h.tables.owned hmode
    obtain ⟨nicks, hdel, -, hobjs, -⟩ := hok.nicks.delete hmn
    obtain ⟨base, hbase, hok'⟩ := Registration.mynickDelete_ok hok hmn hname
    have hs := hbase
    rw [mynickDelete, hdel, Option.map_some] at hs
    obtain rfl := Option.some.inj hs
    obtain ⟨hgrows, hlists, hstored⟩ := storeMarks_ok mn.owner mn.nick h.lists
    have htake : takeNick cfg s mn.owner n mn.nick =
        { storeMarks s mn.owner mn.nick with base := { s.base with nicks := nicks } } := by
      rw [takeNick]
      dsimp only
      have hsame : (nickUngroupHook s mn.owner mn.nick).base = s.base := rfl
      rw [hsame, hbase]
      rfl
    rw [htake]
    refine ⟨⟨hok'.entities, fun _ => hok', ?_⟩, h.apart, h.words, ⟨hlists.numbers, hlists.keyed⟩,
      fun d hd note hnote => ?_⟩
    · intro hother
      rw [hmode] at hother
      cases hother
    · obtain ⟨rm, hrm, heq⟩ | ⟨n', mn', hmn', hkey, mm, hmm, heq⟩ := h.kept d hd note hnote
      · exact .inl ⟨rm, hgrows.restored d.1 rm hrm, heq⟩
      · by_cases hn : n' = n
        · rw [hn, hmn] at hmn'
          obtain rfl := Option.some.inj hmn'
          obtain ⟨rm, hrm, hsame⟩ := hstored mm hmm
          rw [restoredMarkList_congr hkey] at hrm
          exact .inl ⟨rm, hrm, hsame.trans heq⟩
        · refine .inr ⟨n', mn', ?_, hkey, mm, hmm, heq⟩
          dsimp only
          rw [hobjs, Registry.find_erase, if_neg hn]
          exact hmn'

theorem rename_ok (h : StoreOk cfg s) (hmn : s.base.nicks.objs.find n = some mn) :
    StoreOk cfg { s with base := myuserRename cfg.base s.base mn.owner mn.nick } ∧
      (myuserRename cfg.base s.base mn.owner mn.nick).nicks = s.base.nicks ∧
      (myuserRename cfg.base s.base mn.owner mn.nick).accounts =
        s.base.accounts.modify mn.owner fun mu => { mu with name := mn.nick } := by
  cases hmode : cfg.base.noNickOwnership with
  | true =>
    rw [h.tables.unowned hmode] at hmn
    cases hmn
  | false =>
    have hok := h.tables.owned hmode
    obtain ⟨mu, hmu⟩ := Option.isSome_iff_exists.mp (hok.owner n mn hmn)
    obtain ⟨hok', hnicks, haccounts⟩ := Registration.myuserRename_ok hok hmu hmn
    have hlive : ∀ b, ((myuserRename cfg.base s.base mn.owner mn.nick).accounts.find b).isSome →
        (s.base.accounts.find b).isSome := by
      intro b hb
      rw [haccounts, Registry.find_modify] at hb
      split_ifs at hb
      · rw [Option.isSome_map] at hb
        exact hb
      · exact hb
    refine ⟨⟨⟨hok'.entities, fun _ => hok', ?_⟩, fun b c hb hc => h.apart b c (hlive b hb)
      (hlive c hc), fun b hb => h.words b (hlive b hb), ⟨h.lists.numbers, h.lists.keyed⟩,
      fun d hd note hnote => ?_⟩, hnicks, haccounts⟩
    · intro hother
      rw [hmode] at hother
      cases hother
    · apply (h.kept d hd note hnote).mono
      · intro n' mn' hmn'
        dsimp only
        rw [hnicks]
        exact hmn'
      · exact fun _ _ _ _ hmm => hmm
      · exact fun _ hrm => hrm

theorem ungroup_ok (h : StoreOk cfg s) (newname : Option CString) :
    StoreOk cfg (ungroup cfg s nick newname) := by
  rw [ungroup]
  split
  · exact h
  next n _ =>
  split
  · exact h
  next mn hmn =>
    obtain ⟨mu, hmu⟩ := Option.isSome_iff_exists.mp (h.tables.owner hmn)
    have hname : s.accountName mn.owner = mu.name := by
      rw [Store.accountName, hmu]
      rfl
    split
    · next hown =>
      split
      · exact h
      next n2 hn2 =>
        split
        · exact h
        next mn2 hmn2 =>
          split_ifs with hother
          · exact h
          · obtain ⟨hne, hsame⟩ := not_or.mp hother
            have howner : mn.owner = mn2.owner := (not_not.mp hsame).symm
            obtain ⟨hok, hnicks, haccounts⟩ := rename_ok h hmn2
            rw [howner]
            dsimp only
            rw [← howner] at hok haccounts hnicks ⊢
            have hmn' : (myuserRename cfg.base s.base mn.owner mn2.nick).nicks.objs.find n =
                some mn := by
              rw [hnicks]
              exact hmn
            refine takeNick_ok hok hmn' fun mu' hmu' hkey => ?_
            -- The two nicks would be one.
            dsimp only at hmu'
            rw [haccounts, Registry.find_modify, if_pos rfl, hmu] at hmu'
            obtain rfl := Option.some.inj hmu'
            have hindex := h.tables.indexed hmn
            have hindex2 := h.tables.indexed hmn2
            rw [Registration.mynickFind] at hindex hindex2
            have hkey' : Registration.nameKey cfg.base mn.nick =
              Registration.nameKey cfg.base mn2.nick := hkey
            rw [hkey', hindex2] at hindex
            exact hne (Option.some.inj hindex)
    · next hown =>
      split_ifs
      · exact h
      · refine takeNick_ok h hmn fun mu' hmu' hkey => hown ?_
        rw [hmu] at hmu'
        obtain rfl := Option.some.inj hmu'
        rw [irccaseEq_iff, hname]
        exact hkey

theorem drop_ok (h : StoreOk cfg s)
    (hroom : numberMax (s.marks a) + migrating (s.old a) < 2 ^ 31)
    (hown : ∀ d ∈ s.dropped, d.2 ≠ [] → ∀ n mn, s.base.nicks.objs.find n = some mn →
      mn.owner = a → strcasecanon mn.nick = strcasecanon d.1 →
        strcasecanon mn.nick = strcasecanon (s.accountName a)) :
    StoreOk cfg (drop cfg s a) := by
  rw [drop]
  split
  · next hlive =>
    obtain ⟨mu, hmu⟩ := Option.isSome_iff_exists.mp hlive
    obtain ⟨hgrows, hlists, -⟩ := migrateUser_ok cfg h.lists hroom
    obtain ⟨hgrows', hlists', hstored⟩ := storeMarks_ok a (s.accountName a) hlists
    have hall := hgrows.trans hgrows'
    have hhook : storeMarks (migrateUser cfg s a) a (s.accountName a) = accountDropHook cfg s a :=
      rfl
    rw [hhook] at hstored hlists' hall
    obtain ⟨base, hbase, htables, haccounts, hnicks⟩ := h.tables.delete hmu
    dsimp only
    rw [hall.base, hbase]
    dsimp only
    have hlive' : ∀ b, (base.accounts.find b).isSome → (s.base.accounts.find b).isSome := by
      intro b hb
      rw [haccounts, Registry.find_erase] at hb
      split_ifs at hb
      · cases hb
      · exact hb
    refine ⟨htables, fun b c hb hc => ?_, fun b hb => ?_, ⟨fun b => ?_, ?_⟩, fun d hd note hnote => ?_⟩
    · have huids := h.apart b c (hlive' b hb) (hlive' c hc)
      rw [← hall.uids] at huids
      exact huids
    · have hword := h.words b (hlive' b hb)
      rw [← hall.uids] at hword
      exact hword
    · simp only [Store.setOld, Store.setMarks]
      split_ifs
      · exact numbersOk_nil
      · exact hlists'.numbers b
    · exact hlists'.keyed
    · obtain rfl | hold := List.mem_cons.mp hd
      · obtain ⟨mm, hmm, rfl⟩ := List.mem_map.mp hnote
        obtain ⟨rm, hrm, heq⟩ := hstored mm hmm
        exact .inl ⟨rm, hrm, heq⟩
      · rw [hall.dropped] at hold
        obtain ⟨rm, hrm, heq⟩ | ⟨n, mn, hmn, hkey, mm, hmm, heq⟩ := h.kept d hold note hnote
        · exact .inl ⟨rm, hall.restored d.1 rm hrm, heq⟩
        · by_cases howner : mn.owner = a
          · have hsame := hown d hold (List.ne_nil_of_mem hnote) n mn hmn howner hkey
            rw [howner] at hmm
            obtain ⟨rm, hrm, hrmnote⟩ := hstored mm (hgrows.marks a mm hmm)
            rw [restoredMarkList_congr (hsame.symm.trans hkey)] at hrm
            exact .inl ⟨rm, hrm, hrmnote.trans heq⟩
          · refine .inr ⟨n, mn, hnicks n mn hmn howner, hkey, mm, ?_, heq⟩
            simp only [Store.setOld, Store.setMarks, if_neg howner]
            exact hall.marks mn.owner mm hmm
  · exact h

end nicks

/-! ### Nicks and names that marks come back to -/

section restore
variable {cfg : Config} {s : Store} {a smu mu : Nat} {nick account email : CString} {mun : OldMark}

structure Adds (s s' : Store) : Prop where
  nicks : ∀ n mn, s.base.nicks.objs.find n = some mn → s'.base.nicks.objs.find n = some mn
  marks : ∀ a, (s.base.accounts.find a).isSome → s'.marks a = s.marks a
  restoredMarks : s'.restoredMarks = s.restoredMarks
  dropped : s'.dropped = s.dropped

theorem Adds.safe {s' : Store} (h : Adds s s') (htables : TablesOk cfg.base s.base) {note : Note}
    (hsafe : Safe s account note) : Safe s' account note := by
  apply hsafe.mono h.nicks
  · intro n mn hmn mm hmm
    rw [h.marks mn.owner (htables.owner hmn)]
    exact hmm
  · intro rm hrm
    rw [Store.restoredMarkList, h.restoredMarks]
    exact hrm

theorem Moved.safe {s' : Store} (h : Moved s s' a nick) {note : Note}
    (hother : strcasecanon account ≠ strcasecanon nick) (hsafe : Safe s account note) :
    Safe s' account note := by
  apply hsafe.mono
  · intro n mn hmn
    rw [h.base]
    exact hmn
  · exact fun n mn _ => h.marks mn.owner
  · intro rm hrm
    rw [h.others account hother]
    exact hrm

variable (mun) in
theorem group_adds (h : StoreOk cfg s) (hgroup : groupable cfg s smu mu nick = true)
    (hfree : Registration.mynickFind cfg.base s.base (truncate NICKLEN nick) = none) :
    let base := mynickAdd cfg.base s.base mu nick
    StoreOk cfg (myuserNameRestore { s with base := base } mu mun) ∧
      Adds s (myuserNameRestore { s with base := base } mu mun) ∧
      base.entities = s.base.entities ∧
      ∃ n, base.nicks.objs.find n = some ⟨truncate NICKLEN nick, mu⟩ := by
  simp only [groupable, Bool.and_eq_true, Bool.not_eq_true', Option.isNone_iff_eq_none] at hgroup
  obtain ⟨⟨⟨-, hlive⟩, hmode⟩, hnone⟩ := hgroup
  have hok := Registration.mynickAdd_ok (h.tables.owned hmode) hlive hfree
  have hbase : mynickAdd cfg.base s.base mu nick = { s.base with
      nicks := s.base.nicks.add Nick.owner (nickKey cfg.base) (freshNick cfg.base s.base)
        ⟨truncate NICKLEN nick, mu⟩ } := by
    rw [mynickAdd, hnone]
  have hadds : Adds s (myuserNameRestore { s with base := mynickAdd cfg.base s.base mu nick }
      mu mun) := by
    refine ⟨fun n mn hmn => ?_, fun _ _ => rfl, rfl, rfl⟩
    rw [myuserNameRestore, Store.setOld]
    dsimp only
    rw [hbase]
    dsimp only
    rw [Owned.add, Registry.find_insertNew, hmn, Option.some_or]
  have haccounts : (mynickAdd cfg.base s.base mu nick).accounts = s.base.accounts := by rw [hbase]
  refine ⟨⟨⟨hok.entities, fun _ => hok, ?_⟩, ?_, ?_, ⟨h.lists.numbers, h.lists.keyed⟩,
    fun d hd note hnote => hadds.safe h.tables (h.kept d hd note hnote)⟩, hadds, ?_, ?_⟩
  · intro hother
    rw [hmode] at hother
    cases hother
  · have hapart := h.apart
    rw [← haccounts] at hapart
    exact hapart
  · have hwords := h.words
    rw [← haccounts] at hwords
    exact hwords
  · rw [hbase]
  · refine ⟨freshNick cfg.base s.base, ?_⟩
    rw [hbase]
    dsimp only
    rw [Owned.add, Registry.find_insertNew, Registration.freshNick_free, if_pos rfl,
      Option.none_or]

variable (cfg s a) in
theorem migrateUser_marks (base : Registration.State) (hbase : base.entities = s.base.entities) :
    (migrateUser cfg { s with base := base } a).marks = (migrateUser cfg s a).marks := by
  have hfind : Registration.myuserFind cfg.base base = Registration.myuserFind cfg.base s.base := by
    funext name
    rw [Registration.myuserFind, hbase, Registration.myuserFind]
  rw [migrateUser, migrateUser]
  cases hsetter : (s.old a).setter with
  | none => rfl
  | some setter =>
    dsimp only
    rw [hfind]
    rfl

theorem group_ok (h : StoreOk cfg s)
    (hguard : groupable cfg s smu mu nick = true →
      Registration.mynickFind cfg.base s.base (truncate NICKLEN nick) = none ∧
        (smu = mu ∨ s.restoredMarkList (truncate NICKLEN nick) = []) ∧
        Unmixed (((migrateUser cfg (myuserNameRestore s mu mun) smu).marks smu).map
          Multimark.note ++ (s.restoredMarkList (truncate NICKLEN nick)).map RestoredMark.note) ∧
        numberMax (s.marks smu) + migrating ((myuserNameRestore s mu mun).old smu) +
          (s.restoredMarkList (truncate NICKLEN nick)).length < 2 ^ 31) :
    StoreOk cfg (group cfg s smu mu nick mun) := by
  rw [group]
  split
  · next hgroup =>
    obtain ⟨hfree, hsame, hunmixed, hroom⟩ := hguard hgroup
    obtain ⟨hok, hadds, hentities, n, hn⟩ := group_adds mun h hgroup hfree
    have hmarks := migrateUser_marks cfg (myuserNameRestore s mu mun) smu
      (mynickAdd cfg.base s.base mu nick) hentities
    rw [← hmarks] at hunmixed
    dsimp only
    obtain ⟨hmoved, hlists⟩ := nickGroupHook_moved cfg hok.lists hroom hunmixed
    obtain ⟨htables, hapart, hwords, -, hkept⟩ := hok
    refine ⟨?_, ?_, ?_, hlists, fun d hd note hnote => ?_⟩
    · rw [hmoved.base]
      exact htables
    · rw [hmoved.base, hmoved.uids]
      exact hapart
    · rw [hmoved.base, hmoved.uids]
      exact hwords
    · rw [hmoved.dropped] at hd
      have hsafe := hkept d hd note hnote
      by_cases hkey : strcasecanon d.1 = strcasecanon (truncate NICKLEN nick)
      · obtain ⟨rm, hrm, heq⟩ | ⟨n', mn', hmn', hkey', mm, hmm, heq⟩ := hsafe
        · rw [restoredMarkList_congr hkey] at hrm
          obtain rfl | hnil := hsame
          · obtain ⟨mm, hmm, hmmnote⟩ := hmoved.restored rm hrm
            refine .inr ⟨n, ⟨truncate NICKLEN nick, smu⟩, ?_, hkey.symm, mm, hmm,
              hmmnote.trans heq⟩
            rw [hmoved.base]
            exact hn
          · have hempty : (myuserNameRestore { s with base := mynickAdd cfg.base s.base mu nick }
                mu mun).restoredMarkList (truncate NICKLEN nick) = [] := hnil
            rw [hempty] at hrm
            cases hrm
        · refine .inr ⟨n', mn', ?_, hkey', mm, hmoved.marks mn'.owner mm hmm, heq⟩
          rw [hmoved.base]
          exact hmn'
      · exact hmoved.safe hkey hsafe
  · exact h

variable (email mun) in
theorem register_enters (h : StoreOk cfg s) (hreg : registrable cfg s account = true) :
    ∃ a s₁, register cfg s account email mun =
        (a, { accountRegisterHook cfg s₁ a with
          dropped := (accountRegisterHook cfg s₁ a).dropped.filter fun d =>
            nameKey cfg d.1 ≠ nameKey cfg account }) ∧
      s₁.accountName a = account ∧ StoreOk cfg s₁ ∧ Adds s s₁ ∧ s₁.marks a = [] ∧
      migrating (s₁.old a) = migrating mun := by
  rw [registrable, Bool.and_eq_true, decide_eq_true_eq] at hreg
  obtain ⟨mu, base, rfl, hentered, hadd⟩ := h.tables.enter email hreg.1 hreg.2
  obtain ⟨htables, haccounts, hnicks⟩ := h.tables.entered hentered
  let a := freshAccount cfg.base s.base
  let uid := (cfg.newUid (s.listed.map s.uids)).1
  let made : Store := { s with
    base := base
    uids := fun b => if b = a then uid else s.uids b
    marks := fun b => if b = a then [] else s.marks b
    old := fun b => if b = a then .none else s.old b }
  let s₁ : Store :=
    { myuserNameRestore made a mun with base := addOwnNick cfg.base base a mu.name }
  have hfound : s₁.base.accounts.find a = some mu := by
    have hbase : s₁.base.accounts = base.accounts := haccounts.trans hentered.accounts.symm
    rw [hbase]
    exact hentered.found
  have hname : s₁.accountName a = mu.name := by
    rw [Store.accountName, hfound]
    rfl
  have hlive : ∀ b, (s₁.base.accounts.find b).isSome → b ≠ a →
      (s.base.accounts.find b).isSome := by
    intro b hb hne
    have hbase : s₁.base.accounts = s.base.accounts.insertNew a mu := haccounts
    rw [hbase, Registry.find_insertNew, if_neg (Ne.symm hne), Option.or_none] at hb
    exact hb
  have hadds : Adds s s₁ := by
    refine ⟨hnicks, fun b hb => if_neg fun hba => ?_, rfl, rfl⟩
    rw [hba, hentered.fresh] at hb
    cases hb
  have huid : uid ∉ s.listed.map s.uids ∧ IsWord uid := (cfg.newUid (s.listed.map s.uids)).2
  have hnew : ∀ b, (s.base.accounts.find b).isSome → s.uids b ≠ uid := by
    intro b hb heq
    apply huid.1
    rw [← heq]
    exact List.mem_map_of_mem ((mem_listed h.tables).mpr hb)
  have hown : s₁.uids a = uid := if_pos rfl
  have hothers : ∀ b, b ≠ a → s₁.uids b = s.uids b := fun b hba => if_neg hba
  refine ⟨a, s₁, ?_, hname, ⟨htables, ?_, ?_, ⟨fun b => ?_, h.lists.keyed⟩, fun d hd note hnote =>
    hadds.safe h.tables (h.kept d hd note hnote)⟩, hadds, if_pos rfl, ?_⟩
  · have hfirst : addAccount cfg s mu.name email = (a, made) := by
      rw [addAccount, hadd, hentered.name]
      rfl
    have hself : (myuserNameRestore made a mun).accountName a = mu.name := by
      have hmade : (myuserNameRestore made a mun).accountName a =
        ((base.accounts.find a).map Account.name).getD [] := rfl
      rw [hmade, hentered.found]
      rfl
    have hbase : (myuserNameRestore made a mun).base = base := rfl
    have hnick : (if cfg.base.noNickOwnership then myuserNameRestore made a mun
        else { myuserNameRestore made a mun with base := mynickAdd cfg.base base a mu.name }) =
        s₁ := by
      simp only [s₁, addOwnNick]
      split_ifs <;> rfl
    rw [register, hfirst]
    dsimp only
    rw [hself, hbase, hnick]
  · intro b c hb hc heq
    by_cases hba : b = a
    · by_cases hca : c = a
      · rw [hba, hca]
      · rw [hba, hown, hothers c hca] at heq
        exact absurd heq.symm (hnew c (hlive c hc hca))
    · by_cases hca : c = a
      · rw [hca, hown, hothers b hba] at heq
        exact absurd heq (hnew b (hlive b hb hba))
      · rw [hothers b hba, hothers c hca] at heq
        exact h.apart b c (hlive b hb hba) (hlive c hc hca) heq
  · intro b hb
    by_cases hba : b = a
    · rw [hba, hown]
      exact huid.2
    · rw [hothers b hba]
      exact h.words b (hlive b hb hba)
  · have hmarks : s₁.marks b = if b = a then [] else s.marks b := rfl
    rw [hmarks]
    split_ifs
    · exact numbersOk_nil
    · exact h.lists.numbers b
  · have hold : s₁.old a = ⟨mun.setter, mun.reason.map restoredReason, mun.timestamp⟩ := by
      simp [s₁, made, myuserNameRestore, Store.setOld, OldMark.none]
    rw [hold]
    rfl

variable (email) in
theorem register_ok (h : StoreOk cfg s) (hreg : registrable cfg s account = true)
    (hspelling : ∀ d ∈ s.dropped, d.2 ≠ [] → nameKey cfg d.1 = nameKey cfg account →
      strcasecanon d.1 = strcasecanon account)
    (hroom : migrating mun + (s.restoredMarkList account).length < 2 ^ 31) :
    StoreOk cfg (register cfg s account email mun).2 ∧
      ∀ note ∈ lostNotes cfg s account, ∃ mm ∈ (register cfg s account email mun).2.marks
        (register cfg s account email mun).1, mm.note = note := by
  obtain ⟨a, s₁, heq, hname, hok, hadds, hmarks, hold⟩ :=
    register_enters email mun h hreg
  have hlist : s₁.restoredMarkList account = s.restoredMarkList account := by
    rw [Store.restoredMarkList, hadds.restoredMarks, Store.restoredMarkList]
  have hmax : numberMax (s₁.marks a) = 0 := by
    rw [hmarks]
    rfl
  have hroom₁ : numberMax (s₁.marks a) + migrating (s₁.old a) +
      (s₁.restoredMarkList (s₁.accountName a)).length < 2 ^ 31 := by
    rw [hmax, hold, hname, hlist]
    omega
  obtain ⟨hmoved, hlists⟩ := accountRegisterHook_moved cfg hok.lists hroom₁
  rw [hname] at hmoved
  rw [heq]
  refine ⟨⟨?_, ?_, ?_, ⟨hlists.numbers, hlists.keyed⟩, fun d hd note hnote => ?_⟩,
    fun note hnote => ?_⟩
  · dsimp only
    rw [hmoved.base]
    exact hok.tables
  · dsimp only
    rw [hmoved.base, hmoved.uids]
    exact hok.apart
  · dsimp only
    rw [hmoved.base, hmoved.uids]
    exact hok.words
  · obtain ⟨hd, hother⟩ := List.mem_filter.mp hd
    rw [hmoved.dropped] at hd
    have hkey : strcasecanon d.1 ≠ strcasecanon account :=
      fun hkey => (of_decide_eq_true hother) (irccasecanon_congr hkey)
    have hsafe := hmoved.safe hkey (hok.kept d hd note hnote)
    exact hsafe.mono (fun _ _ hmn => hmn) (fun _ _ _ _ hmm => hmm) fun _ hrm => hrm
  · obtain ⟨d, hd, hnote⟩ := List.mem_flatMap.mp hnote
    obtain ⟨hd, hsame⟩ := List.mem_filter.mp hd
    have hkey := hspelling d hd (List.ne_nil_of_mem hnote) (of_decide_eq_true hsame)
    obtain ⟨rm, hrm, heq⟩ | ⟨n, mn, hmn, hnick, -⟩ := h.kept d hd note hnote
    · rw [restoredMarkList_congr hkey, ← hlist] at hrm
      obtain ⟨mm, hmm, hmmnote⟩ := hmoved.restored rm hrm
      exact ⟨mm, hmm, hmmnote.trans heq⟩
    · -- The name would be a nick, and REGISTER would not take it.
      have hindex := h.tables.indexed hmn
      have hnickKey : Registration.nameKey cfg.base mn.nick =
        Registration.nameKey cfg.base account := irccasecanon_congr (hnick.trans hkey)
      rw [Registration.mynickFind, hnickKey] at hindex
      rw [registrable, Bool.and_eq_true] at hreg
      have hfree := hreg.2
      cases hmode : cfg.base.noNickOwnership with
      | false =>
        rw [hmode, Registration.mynickFind, hindex] at hfree
        cases hfree
      | true =>
        rw [h.tables.unowned hmode] at hmn
        cases hmn

end restore

/-! ### Runs -/

/-- What the hooks and the rows can keep. A mark is saved whole if no word of it is missing or
taken for something else; a name comes back in the spelling it was dropped in; GROUP is of a nick
that is free under the letters that are kept of it, by the account that gets it, and no two marks
of that account and of the nick have one text; an account that is dropped has no nick of which
something was said but its own name; and numbers are below 2^31. -/
def Kept (cfg : Config) (st : State) : Event → Prop
  | .migrate => ∀ a ∈ st.store.listed,
    numberMax (st.store.marks a) + migrating (st.store.old a) < 2 ^ 31
  | .info a => numberMax (st.store.marks a) + migrating (st.store.old a) < 2 ^ 31
  | .add _ mu _ _ => numberMax (st.store.marks mu) + 1 < 2 ^ 31
  | .register account _ mun =>
    (∀ d ∈ st.store.dropped, d.2 ≠ [] → nameKey cfg d.1 = nameKey cfg account →
      strcasecanon d.1 = strcasecanon account) ∧
      migrating mun + (st.store.restoredMarkList account).length < 2 ^ 31
  | .group smu mu nick mun => groupable cfg st.store smu mu nick = true →
    Registration.mynickFind cfg.base st.store.base (truncate NICKLEN nick) = none ∧
      (smu = mu ∨ st.store.restoredMarkList (truncate NICKLEN nick) = []) ∧
      Unmixed (((migrateUser cfg (myuserNameRestore st.store mu mun) smu).marks smu).map
        Multimark.note ++
          (st.store.restoredMarkList (truncate NICKLEN nick)).map RestoredMark.note) ∧
      numberMax (st.store.marks smu) + migrating ((myuserNameRestore st.store mu mun).old smu) +
        (st.store.restoredMarkList (truncate NICKLEN nick)).length < 2 ^ 31
  | .ungroup .. => True
  | .drop a => numberMax (st.store.marks a) + migrating (st.store.old a) < 2 ^ 31 ∧
    ∀ d ∈ st.store.dropped, d.2 ≠ [] → ∀ e ∈ st.store.base.nicks.objs.entries,
      e.2.owner = a → strcasecanon e.2.nick = strcasecanon d.1 →
        strcasecanon e.2.nick = strcasecanon (st.store.accountName a)
  | .save => Storable st.store
  | .reload => True

instance (cfg : Config) (st : State) : ∀ e, Decidable (Kept cfg st e)
  | .migrate => inferInstanceAs (Decidable (∀ a ∈ st.store.listed, _ < _))
  | .info _ => inferInstanceAs (Decidable (_ < _))
  | .add .. => inferInstanceAs (Decidable (_ < _))
  | .register account _ _ => inferInstanceAs (Decidable ((∀ d ∈ st.store.dropped, d.2 ≠ [] →
      nameKey cfg d.1 = nameKey cfg account → strcasecanon d.1 = strcasecanon account) ∧ _ < _))
  | .group smu mu nick _ => inferInstanceAs (Decidable (groupable cfg st.store smu mu nick = true →
      _ = none ∧ (smu = mu ∨ _ = []) ∧ Unmixed _ ∧ _ < _))
  | .ungroup .. => inferInstanceAs (Decidable True)
  | .drop a => inferInstanceAs (Decidable (_ < _ ∧ ∀ d ∈ st.store.dropped, d.2 ≠ [] →
      ∀ e ∈ st.store.base.nicks.objs.entries, e.2.owner = a →
        strcasecanon e.2.nick = strcasecanon d.1 →
          strcasecanon e.2.nick = strcasecanon (st.store.accountName a)))
  | .save => inferInstanceAs (Decidable (Storable st.store))
  | .reload => inferInstanceAs (Decidable True)

/-- What was said about a name is on the account that registers it, and a database that is loaded
has the marks and the lists of the one that was saved. -/
def Obs.Fine : Obs → Prop
  | .registered lost marks => ∀ note ∈ lost, ∃ mm ∈ marks, mm.note = note
  | .reloaded was loaded => (∀ a ∈ was.listed, loaded.marks a = was.marks a) ∧
    ∀ nick, loaded.restoredMarkList nick = was.restoredMarkList nick
  | .exited => False

structure RunOk (cfg : Config) (st : State) : Prop where
  store : StoreOk cfg st.store
  file : ∀ f ∈ st.file, StoreOk cfg f.1 ∧ Storable f.1 ∧
    f.2 = writeRows '\n' (writeMultimarkDb f.1)

section runs
variable {cfg : Config} {s : Store} {st : State}

theorem storeOk_empty : StoreOk cfg .empty :=
  ⟨⟨fun _ _ => ⟨nofun, nofun⟩, fun _ => Registration.empty_nicksOk, fun _ => rfl⟩, nofun, nofun,
    ⟨fun _ => numbersOk_nil, nofun⟩, nofun⟩

theorem reload_ok (h : StoreOk cfg s) (hstorable : Storable s) :
    ∃ loaded, readFile s (writeRows '\n' (writeMultimarkDb s)) = some loaded ∧
      StoreOk cfg loaded ∧ (Obs.reloaded s loaded).Fine := by
  have hmem : ∀ {a}, a ∈ s.listed ↔ (s.base.accounts.find a).isSome := mem_listed h.tables
  obtain ⟨loaded, hread, hsame, hkeyed, hlists⟩ := readFile_write hstorable h.lists.keyed
    (nodup_listed h.tables) (fun a ha => h.words a (hmem.mp ha))
    fun a ha b hb => h.apart a b (hmem.mp ha) (hmem.mp hb)
  have hmarks : ∀ a ∈ s.listed, loaded.marks a = s.marks a := by
    intro a ha
    rw [hsame.marks]
    exact if_pos ha
  refine ⟨loaded, hread, ⟨?_, ?_, ?_, ⟨fun a => ?_, hkeyed⟩, fun d hd note hnote => ?_⟩, hmarks,
    hlists⟩
  · rw [hsame.base]
    exact h.tables
  · rw [hsame.base, hsame.uids]
    exact h.apart
  · rw [hsame.base, hsame.uids]
    exact h.words
  · rw [hsame.marks]
    dsimp only
    split_ifs
    · exact h.lists.numbers a
    · exact numbersOk_nil
  · rw [hsame.dropped] at hd
    apply (h.kept d hd note hnote).mono
    · intro n mn hmn
      rw [hsame.base]
      exact hmn
    · intro n mn hmn mm hmm
      rw [hmarks mn.owner (hmem.mpr (h.tables.owner hmn))]
      exact hmm
    · intro rm hrm
      rw [hlists]
      exact hrm

theorem step_ok (h : RunOk cfg st) {e : Event} (hkept : Kept cfg st e) :
    RunOk cfg (step cfg st e).1 ∧ ∀ o ∈ (step cfg st e).2, o.Fine := by
  have hstore := h.store
  cases e with
  | migrate =>
    obtain ⟨hgrows, hlists⟩ := foldl_migrateUser cfg hstore.lists hkept
    exact ⟨⟨hstore.grows hgrows hlists, h.file⟩, nofun⟩
  | info a =>
    obtain ⟨hgrows, hlists, -⟩ := migrateUser_ok cfg hstore.lists hkept
    exact ⟨⟨hstore.grows hgrows hlists, h.file⟩, nofun⟩
  | add smu mu info now =>
    obtain ⟨hgrows, hlists⟩ := addMark_ok smu info now hstore.lists hkept
    exact ⟨⟨hstore.grows hgrows hlists, h.file⟩, nofun⟩
  | register account email mun =>
    rw [step]
    split
    · next hreg =>
      obtain ⟨hok, hlost⟩ := register_ok email hstore hreg hkept.1 hkept.2
      refine ⟨⟨hok, h.file⟩, fun o ho => ?_⟩
      rw [List.mem_singleton.mp ho]
      exact hlost
    · exact ⟨h, nofun⟩
  | group smu mu nick mun => exact ⟨⟨group_ok hstore hkept, h.file⟩, nofun⟩
  | ungroup nick newname => exact ⟨⟨ungroup_ok hstore newname, h.file⟩, nofun⟩
  | drop a =>
    refine ⟨⟨drop_ok hstore hkept.1 fun d hd hne n mn hmn => ?_, h.file⟩, nofun⟩
    exact hkept.2 d hd hne (n, mn) ((Registry.find_eq_some_iff n mn _).mp hmn)
  | save =>
    refine ⟨⟨hstore, fun f hf => ?_⟩, nofun⟩
    obtain rfl := Option.some.inj hf
    exact ⟨hstore, hkept, rfl⟩
  | reload =>
    rw [step]
    cases hfile : st.file with
    | none => exact ⟨h, nofun⟩
    | some f =>
      obtain ⟨hok, hstorable, htext⟩ := h.file f hfile
      obtain ⟨loaded, hread, hloaded, hfine⟩ := reload_ok hok hstorable
      dsimp only
      rw [htext, hread]
      refine ⟨⟨hloaded, ?_⟩, fun o ho => ?_⟩
      · intro f' hf'
        obtain rfl := Option.some.inj hf'
        exact ⟨hok, hstorable, htext⟩
      · rw [List.mem_singleton.mp ho]
        exact hfine

/-- Whatever the order of the commands, as long as each is one that `Kept` speaks of: the numbers of
an account's marks are positive and stay apart, a name that is registered again has all the marks it
was dropped with, and a database comes back as it was saved. -/
theorem marks_kept (h : RunOk cfg st) {es : List Event} (hkept : Guarded (step cfg) (Kept cfg) st es) :
    (∀ a, NumbersOk ((run (step cfg) st es).1.store.marks a)) ∧
      ∀ o ∈ (run (step cfg) st es).2, o.Fine := by
  have hok := run_state_invariant (I := RunOk cfg) (fun _ _ hs hg => (step_ok hs hg).1) h hkept
  exact ⟨hok.store.lists.numbers, run_guarded_emits (I := RunOk cfg) (fun _ _ hs hg => step_ok hs hg) h
    hkept⟩

end runs

def Config.small : Config where
  base := .small
  newUid used :=
    ⟨List.replicate (used.flatten.length + 1) 'A', fun h => by
      have hle := (List.sublist_flatten_of_mem h).length_le
      rw [List.length_replicate] at hle
      omega, by simp [IsWord]⟩

theorem marks_kept_twice :
    let es := [.register "alice".toList "al@example.org".toList .none,
      .register "bob".toList "bob@example.org".toList .none,
      .add 2 1 "spams".toList 100, .drop 1, .register "Alice".toList "al@example.org".toList .none,
      .save, .reload]
    (∀ a, NumbersOk ((run (step .small) ⟨.empty, none⟩ es).1.store.marks a)) ∧
      ∀ o ∈ (run (step .small) ⟨.empty, none⟩ es).2, o.Fine :=
  marks_kept ⟨storeOk_empty, fun _ hf => by cases hf⟩ (by decide +kernel)

/-- Alice has a mark that was never restored from anywhere; in the database the account it was
restored from is a star. -/
theorem star_comes_back :
    let es := [.register "alice".toList "al@example.org".toList .none,
      .add 1 1 "spams".toList 100, .save, .reload]
    ¬ ∀ o ∈ (run (step .small) ⟨.empty, none⟩ es).2, o.Fine := by
  intro es h
  have hall : ((run (step .small) ⟨.empty, none⟩ es).2.all fun
      | .reloaded was loaded => 1 ∉ was.listed || loaded.marks 1 = was.marks 1
      | _ => true) = true := by
    rw [List.all_eq_true]
    intro o ho
    have hfine := h o ho
    cases o with
    | reloaded was loaded =>
      rw [Bool.or_eq_true, decide_eq_true_eq, decide_eq_true_eq, or_iff_not_imp_left, not_not]
      exact hfine.1 1
    | registered | exited => rfl
  exact absurd hall (by decide +kernel)

end ChatServices.NickServ.Marks

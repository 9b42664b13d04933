import Mathlib.Data.List.Sort
import ChatServices.ChanServ.AccessList

/-! Flag templates (roles): the `name=flags` list kept in a channel's metadata, the
network-wide ones, and the editing of the list in its fixed buffers. -/
namespace ChatServices.ChanServ
open ChatServices.Lib.Mask ChatServices.Text

/-- One `name=flags` of the list: where it starts, its name, the text from the `=` up to
the next space, and what follows from that space on. -/
structure TemplateItem where
  off : Nat
  name : CString
  value : CString
  rest : Option CString
  deriving DecidableEq

/-- The loop over `private:templates` that every reader of the list shares. -/
def templateItemsFrom : Nat → Nat → CString → List TemplateItem
  | 0, _, _ => []
  | fuel + 1, off, str =>
    let p := str.dropWhile (· = ' ')
    let start := off + (str.length - p.length)
    let q := p.dropWhile (· ≠ '=')
    if q = [] then []
    else
      let r := q.dropWhile (· ≠ ' ')
      ⟨start, p.takeWhile (· ≠ '='), q.takeWhile (· ≠ ' '), if r = [] then none else some r⟩ ::
        templateItemsFrom fuel (start + (p.length - r.length)) r

def templateItems (value : CString) : List TemplateItem :=
  templateItemsFrom (value.length + 1) 0 value

/-- The flags of an item, read through the buffer `ss` of 40 bytes. -/
def TemplateItem.flags (fc : FlagConfig) (item : TemplateItem) : Flags :=
  flagsToBitmask fc (truncate 40 item.value) 0#32

def getitemFrom : Nat → CString → CString → Option CString
  | 0, _, _ => none
  | fuel + 1, str, name =>
    let p := str.dropWhile (· ≠ '=')
    if p = [] then none
    else if strcaseEq (str.takeWhile (· ≠ '=')) name then
      some ((truncate 300 p).takeWhile (· ≠ ' '))
    else getitemFrom fuel ((p.dropWhile (· ≠ ' ')).dropWhile (· = ' ')) name

def getitem (str name : CString) : Option CString := getitemFrom (str.length + 1) str name

def getGlobalTemplateFlags (cfg : ChanConfig) (name : CString) : Flags :=
  ((cfg.globalTemplates.find? (fun t => strcaseEq t.1 name)).map
    (fun t => t.2 &&& cfg.caAll)).getD 0#32

def getTemplateFlags (cfg : ChanConfig) (mc : Option MyChan) (name : CString) : Flags :=
  match (mc.bind MyChan.templates).bind (getitem · name) with
  | some d => flagsToBitmask cfg.flagConfig d 0#32
  | none => getGlobalTemplateFlags cfg name

def getTemplateName (cfg : ChanConfig) (mc : MyChan) (level : Flags) : Option CString :=
  match (templateItems (mc.templates.getD [])).find? (·.flags cfg.flagConfig = level) with
  | some item => some (truncate 400 item.name)
  | none =>
    (cfg.globalTemplates.reverse.find? (fun t => t.2 &&& cfg.caAll = level)).map Prod.fst

/-- The names of two levels, looked up one after the other. Names of the channel's own templates come
in the one buffer `flagname`. -/
def getTemplateNames (cfg : ChanConfig) (mc : MyChan) (old new : Flags) :
    Option CString × Option CString :=
  let own (level : Flags) := (templateItems (mc.templates.getD [])).any (·.flags cfg.flagConfig = level)
  let newtemplate := getTemplateName cfg mc new
  (if own old && own new then newtemplate else getTemplateName cfg mc old, newtemplate)

/-- The buffer after the item of a role is rewritten, with `none` for a removed one. -/
def rewriteTemplate (value : CString) (item : TemplateItem) (role : CString)
    (flagstr : Option CString) : CString :=
  match flagstr with
  | some flagstr =>
    truncate 400 (value.take item.off ++ role ++ '=' :: flagstr ++ item.rest.getD [])
  | none =>
    if item.off = 0 then truncate 400 ((item.rest.getD []).drop 1)
    else truncate 400 (value.take (item.off - 1) ++ item.rest.getD [])

def appendTemplate (value : Option CString) (role flagstr : CString) : CString :=
  match value with
  | some value => truncate 400 (value ++ ' ' :: role ++ '=' :: flagstr)
  | none => truncate 400 (role ++ '=' :: flagstr)

def setTemplates (newstr : CString) (mc : MyChan) : MyChan :=
  { mc with metadata :=
      if newstr = [] then metadataDelete mc.metadata "private:templates".toList
      else metadataAdd mc.metadata "private:templates".toList newstr }

/-- `count_bits`, which starts at the second bit. -/
def countBits (bits : Flags) : Nat := (List.range' 1 31).countP bits.getLsbD

structure Template where
  name : CString
  level : Flags
  deriving DecidableEq

/-- `append_global_template`: a template the channel has already is not listed again. -/
def appendGlobalTemplate (cfg : ChanConfig) (mc : MyChan) (l : List Template)
    (t : CString × Flags) : List Template :=
  if !cfg.hideXop && (t.2 &&& cfg.caAll = getGlobalTemplateFlags cfg "VOP".toList &&
      strcaseEq t.1 "HOP".toList) then l
  else if l.any (fun x => strcaseEq x.name t.1) then l
  else l ++ [⟨truncate 400 t.1, getTemplateFlags cfg (some mc) t.1⟩]

def buildTemplateList (cfg : ChanConfig) (mc : MyChan) : List Template :=
  let own := (templateItems (mc.templates.getD [])).map
    (fun item => ⟨truncate 400 item.name, item.flags cfg.flagConfig⟩)
  ((cfg.globalTemplates.foldl (appendGlobalTemplate cfg mc) own).insertionSort
    (fun a b => countBits a.level ≤ countBits b.level)).reverse

def hasCtrlChars (text : CString) : Bool := text.any (fun c => c.toNat < 32)

theorem getGlobalTemplateFlags_sub (cfg : ChanConfig) (name : CString) :
    Sub (getGlobalTemplateFlags cfg name) cfg.caAll := by
  rw [getGlobalTemplateFlags]
  cases cfg.globalTemplates.find? (fun t => strcaseEq t.1 name) with
  | none => exact zero_sub _
  | some t => exact and_sub_right _ _

theorem getTemplateFlags_sub (cfg : ChanConfig) (mc : Option MyChan) (name : CString) :
    Sub (getTemplateFlags cfg mc name) cfg.caAll := by
  rw [getTemplateFlags]
  cases (mc.bind MyChan.templates).bind (getitem · name) with
  | none => exact getGlobalTemplateFlags_sub cfg name
  | some d => exact flagsToBitmask_sub cfg.flagConfig d _

theorem TemplateItem.flags_sub (fc : FlagConfig) (item : TemplateItem) :
    Sub (item.flags fc) fc.caAll :=
  flagsToBitmask_sub fc _ _

example : (templateItems "a=+o bb=+vh".toList).map (fun i => (i.off, i.name, i.value)) =
    [(0, "a".toList, "=+o".toList), (5, "bb".toList, "=+vh".toList)] := by decide

end ChatServices.ChanServ

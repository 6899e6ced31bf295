import Mathlib.Algebra.GroupWithZero.Nat
import Offload.Cache.Directory
import Offload.Proofs.FileTree.Directories

/-!
# The stamped cache directory

A directory whose stamp says the wanted version is left alone, whatever else is in it; any other is
removed, created anew and stamped. What is left afterwards is the stamp and the directories on the way
to it (`Restamped`), and the stamp is then found current.

The removal counts as done when it reports that something was not found, and the directory is then created
where the path leads by now. If the way to the directory was missing, as in `made/../kept`, that says nothing
about the directory: creating `made` makes the path lead to `kept` with everything that was in it. If the
way went by the directory itself (`Undercut`), as in `kept/self/` where `self` is a link to `kept`, the
removal has emptied `kept` and what is created then is a directory `self` in it. `prepareVersion_outcome` says
that nothing else is lost or left behind.
-/

namespace Offload.CacheDirectory

open FileTree

variable {tree cleared grown after : FileTree} {dir : String} {version : UInt32}
  {place here spot : Location}

/-! ## The stamp -/

/-- Four bytes read as a number. -/
theorem toNat_version (a b c d : UInt8) :
    ((a.toUInt32 <<< 24) ||| (b.toUInt32 <<< 16) ||| (c.toUInt32 <<< 8) ||| d.toUInt32).toNat =
      a.toNat * 2 ^ 24 + b.toNat * 2 ^ 16 + c.toNat * 2 ^ 8 + d.toNat := by
  have hb := b.toNat_lt
  have hc := c.toNat_lt
  have hd := d.toNat_lt
  -- each byte fills bits that those before it leave free
  have hcd : c.toNat <<< 8 ||| d.toNat = c.toNat * 2 ^ 8 + d.toNat := by
    rw [← Nat.shiftLeft_add_eq_or_of_lt hd, Nat.shiftLeft_eq]
  have hbcd : b.toNat <<< 16 ||| (c.toNat * 2 ^ 8 + d.toNat) =
      b.toNat * 2 ^ 16 + (c.toNat * 2 ^ 8 + d.toNat) := by
    rw [← Nat.shiftLeft_add_eq_or_of_lt (by omega), Nat.shiftLeft_eq]
  have habcd : a.toNat <<< 24 ||| (b.toNat * 2 ^ 16 + (c.toNat * 2 ^ 8 + d.toNat)) =
      a.toNat * 2 ^ 24 + (b.toNat * 2 ^ 16 + (c.toNat * 2 ^ 8 + d.toNat)) := by
    rw [← Nat.shiftLeft_add_eq_or_of_lt (by omega), Nat.shiftLeft_eq]
  have hfits : ∀ {n i : Nat}, n < 2 ^ 8 → i ≤ 24 → n <<< i % 2 ^ 32 = n <<< i := by
    intro n i hn hi
    refine Nat.mod_eq_of_lt ?_
    rw [Nat.shiftLeft_eq]
    calc n * 2 ^ i < 2 ^ 8 * 2 ^ i := Nat.mul_lt_mul_of_pos_right hn (Nat.two_pow_pos i)
      _ = 2 ^ (8 + i) := (Nat.pow_add 2 8 i).symm
      _ ≤ 2 ^ 32 := Nat.pow_le_pow_right (by decide) (by omega)
  calc ((a.toUInt32 <<< 24) ||| (b.toUInt32 <<< 16) ||| (c.toUInt32 <<< 8) ||| d.toUInt32).toNat
      = a.toNat <<< 24 % 2 ^ 32 ||| b.toNat <<< 16 % 2 ^ 32 ||| c.toNat <<< 8 % 2 ^ 32 |||
          d.toNat := by
        simp only [UInt32.toNat_or, UInt32.toNat_shiftLeft, UInt8.toNat_toUInt32]
        rfl
    _ = a.toNat <<< 24 ||| (b.toNat <<< 16 ||| (c.toNat <<< 8 ||| d.toNat)) := by
        rw [hfits a.toNat_lt (by decide), hfits hb (by decide), hfits hc (by decide), Nat.or_assoc,
          Nat.or_assoc]
    _ = a.toNat * 2 ^ 24 + b.toNat * 2 ^ 16 + c.toNat * 2 ^ 8 + d.toNat := by
        rw [hcd, hbcd, habcd, Nat.add_assoc, Nat.add_assoc]

/-- A stamp says a version iff it starts with the bytes that are written for it. -/
theorem versionOfBytes?_eq_some_iff {bytes : Bytes} :
    versionOfBytes? bytes = some version ↔ bytes.take 4 = stampBytes version := by
  match bytes with
  | [] | [_] | [_, _] | [_, _, _] => simp [versionOfBytes?, stampBytes]
  | a :: b :: c :: d :: rest =>
    have ha := a.toNat_lt
    have hb := b.toNat_lt
    have hc := c.toNat_lt
    have hd := d.toNat_lt
    have hversion := version.toNat_lt
    simp only [versionOfBytes?, stampBytes, Option.some.injEq, ← UInt32.toNat_inj, toNat_version,
      List.take_succ_cons, List.take_zero, List.cons.injEq, ← UInt8.toNat_inj, and_true,
      UInt32.toNat_toUInt8, UInt32.toNat_shiftRight, Nat.shiftRight_eq_div_pow]
    change _ ↔ a.toNat = version.toNat / 2 ^ 24 % 2 ^ 8 ∧ b.toNat = version.toNat / 2 ^ 16 % 2 ^ 8 ∧
      c.toNat = version.toNat / 2 ^ 8 % 2 ^ 8 ∧ d.toNat = version.toNat % 2 ^ 8
    omega

/-- The stamp of a directory can be read and says this version. -/
def Stamped (tree : FileTree) (dir : String) (version : UInt32) : Prop :=
  ∃ contents, tree.read (Path.joinText dir stampName) = .ok contents ∧
    contents.take 4 = stampBytes version

theorem readStamp?_eq_some_iff :
    readStamp? tree (Path.joinText dir stampName) = some version ↔ Stamped tree dir version := by
  rw [readStamp?, Stamped]
  cases hread : tree.read (Path.joinText dir stampName) with
  | error e => simp [Except.toOption]
  | ok contents => simp [Except.toOption, versionOfBytes?_eq_some_iff]

/-- A directory has one stamp. -/
theorem Stamped.eq {other : UInt32} (h : Stamped tree dir version) (h' : Stamped tree dir other) :
    other = version := by
  rw [← readStamp?_eq_some_iff] at h h'
  exact Option.some.inj (h'.symm.trans h)

/-! ## What is left -/

/-- A directory that one of the paths above `dir` leads to. -/
def OnTheWay (tree : FileTree) (dir : String) (here : Location) : Prop :=
  tree.node? here = some .directory ∧ ∃ above, Above dir above ∧ tree.LeadsTo above here

/-- A way that does not lead up comes to the directory before anything in it, if there are no links in
it. -/
theorem OnTheWay.up (h : OnTheWay tree dir here) (hleads : tree.LeadsTo dir place)
    (hlinks : ∀ spot text, place <+: spot → spot ≠ place → tree.node? spot ≠ some (.link text))
    (hbelow : place <+: here) (hne : here ≠ place) : ".." ∈ partNames dir := by
  by_contra hup
  obtain ⟨-, above, habove, hway⟩ := h
  obtain ⟨⟨more, hmore⟩, horigin⟩ : _ ∧ tree.origin above = tree.origin dir := habove.names_isPrefix
  obtain ⟨links, seen, -, hwalk⟩ := walk_eq_ok_iff.mp hleads
  obtain ⟨links', seen', -, hway⟩ := walk_eq_ok_iff.mp hway
  -- dots apart, the way goes on from there to the directory
  have hall : Walks tree links seen (tree.origin dir)
      ((partNames above).filter (· ≠ ".") ++ more) (.directory place) :=
    hwalk.dots (by rw [hmore, List.filter_filter]; simp)
  have hfront : Walks tree links' seen' (tree.origin above) ((partNames above).filter (· ≠ "."))
      (.directory here) := hway.dots (by simp)
  rw [horigin] at hfront
  have hunder : here <+: place := by
    by_cases hnil : more = []
    · rw [hnil, List.append_nil] at hall
      cases hfront.target_eq hall
      exact List.prefix_refl _
    · obtain ⟨links₂, seen₂, hrest⟩ := hall.rest hnil hfront
      refine hrest.isPrefix hbelow (fun hmem => hup ?_) hlinks
      have hname : ".." ∈ (partNames dir).filter (· ≠ ".") := by
        rw [← hmore]
        exact List.mem_append_right _ hmem
      exact (List.mem_filter.mp hname).1
  exact hne (hunder.eq_of_length_le hbelow.length_le)

/-- The directory, to which the path leads, holds its stamp and nothing else, and outside of it nothing has
changed. Directories on the way to it may have been created; they are outside of it, unless that way leads
up. -/
structure Restamped (tree after : FileTree) (dir : String) (place : Location) (version : UInt32) :
    Prop where
  leads : after.LeadsTo dir place
  stamp : ∃ data, after.node? (place ++ [stampName]) = some (.file data) ∧
    data.contents = stampBytes version
  inside : ∀ here, place <+: here → here ≠ place → here ≠ place ++ [stampName] →
    after.node? here = none ∨ ".." ∈ partNames dir ∧ OnTheWay after dir here
  outside : ∀ here, ¬ place <+: here →
    after.node? here = tree.node? here ∨ tree.node? here = none ∧ OnTheWay after dir here

/-- Something outside of the directory is no longer what it was. -/
def Lost (tree after : FileTree) (place : Location) : Prop :=
  ∃ here, ¬ place <+: here ∧ tree.node? here ≠ none ∧ after.node? here ≠ tree.node? here

/-- Something in the directory is still what it was, and is neither a stamp nor on the way. -/
def Left (tree after : FileTree) (dir : String) (place : Location) : Prop :=
  ∃ here, place <+: here ∧ here ≠ place ∧ tree.node? here ≠ none ∧
    after.node? here = tree.node? here ∧
    ¬ (here = place ++ [stampName] ∧ ∃ data, tree.node? here = some (.file data)) ∧
    ¬ OnTheWay after dir here

/-- Without the directory the path does not name its place any more: the way there goes by the directory
itself. -/
def Undercut (tree : FileTree) (dir : String) : Prop :=
  ∃ place, tree.ownPlace dir = .ok place ∧ (tree.erase place).entryPlace dir ≠ .ok place

theorem ne_stamp (place : Location) : place ++ [stampName] ≠ place := by simp

/-- What is outside of the directory is neither the directory nor its stamp. -/
theorem ne_of_outside (hout : ¬ place <+: here) : here ≠ place ∧ here ≠ place ++ [stampName] := by
  constructor
  · rintro rfl
    exact hout (List.prefix_refl _)
  · rintro rfl
    exact hout (List.prefix_append _ _)

/-! ## Writing the stamp -/

/-- The stamp is written into the directory that the path leads to, or to where a link there points. -/
structure StampWrite (grown after : FileTree) (dir : String) (version : UInt32)
    (place spot : Location) : Prop where
  leads : grown.LeadsTo dir place
  put : ∃ data, data.contents = stampBytes version ∧ PutAt spot (.file data) grown after
  not_passes : ¬ Walks.Passes grown spot
  spot : (∃ text, grown.node? (place ++ [stampName]) = some (.link text)) ∨
    spot = place ++ [stampName]

/-- One name that leads to no directory is that of a link, or of what it leads to. -/
theorem link_or_spot_eq {links : Nat} {seen : List Location} {name : String} {target : Target}
    (hwalk : Walks tree links seen place [name] target) (hspot : Walks.AtSpot tree spot target)
    (hname : IsName name) :
    (∃ text, tree.node? (place ++ [name]) = some (.link text)) ∨ spot = place ++ [name] := by
  cases hwalk with
  | dot _ => exact absurd rfl hname.1
  | up _ => exact absurd rfl hname.2.1
  | enter _ _ hend =>
    cases hend
    cases hspot
  | link _ hnode _ => exact .inl ⟨_, hnode⟩
  | file _ _ | missing _ _ =>
    cases hspot
    exact .inr rfl

theorem stampWrite_of_write
    (h : grown.write (Path.joinText dir stampName) (stampBytes version) = .ok after) :
    ∃ place spot, StampWrite grown after dir version place spot := by
  obtain ⟨spot, data, hwritten⟩ := written_of_write h
  obtain ⟨-, -, links, way, target, hlinks, hspot, hwalk, -⟩ := hwritten.walks
  -- the names of the stamp's path are those of the directory's, and one more
  rw [partNames_joinText (by decide) (by decide), origin_joinText (by decide)] at hwalk
  obtain ⟨place, links₁, seen₁, links₂, seen₂, hfront, hlast, rfl, -⟩ :=
    hwalk.split (List.cons_ne_nil stampName [])
  exact ⟨place, spot, walk_eq_ok_iff.mpr ⟨links₁, seen₁, by omega, hfront⟩,
    ⟨data, hwritten.contents, hwritten.put⟩, hwritten.not_passes,
    link_or_spot_eq hlast hspot ⟨by decide, by decide, by decide⟩⟩

namespace StampWrite

theorem node_of_ne (h : StampWrite grown after dir version place spot) (hne : here ≠ spot) :
    after.node? here = grown.node? here := by
  obtain ⟨data, -, hput⟩ := h.put
  exact hput.elsewhere here hne

theorem node_spot (h : StampWrite grown after dir version place spot) :
    ∃ data, after.node? spot = some (.file data) ∧ data.contents = stampBytes version := by
  obtain ⟨data, hdata, hput⟩ := h.put
  exact ⟨data, hput.there, hdata⟩

theorem keepsWays (h : StampWrite grown after dir version place spot) : KeepsWays grown after := by
  obtain ⟨data, -, hput⟩ := h.put
  exact hput.keepsWays h.not_passes

theorem directory (h : StampWrite grown after dir version place spot)
    (hhere : grown.node? here = some .directory) : after.node? here = some .directory := by
  rw [h.node_of_ne]
  · exact hhere
  · rintro rfl
    exact h.not_passes (.inl hhere)

/-- A link in the place of the stamp is still there. -/
theorem spot_eq (h : StampWrite grown after dir version place spot)
    (hstamp : ∀ text, after.node? (place ++ [stampName]) ≠ some (.link text)) :
    spot = place ++ [stampName] := by
  rcases h.spot with ⟨text, hlink⟩ | hspot
  · refine absurd ?_ (hstamp text)
    rw [h.node_of_ne, hlink]
    rintro rfl
    exact h.not_passes (.inr ⟨text, hlink⟩)
  · exact hspot

end StampWrite

/-! ## Creating the directory -/

/-- The cleared directory was created and stamped. -/
structure Created (cleared after : FileTree) (dir : String) (version : UInt32) (grown : FileTree)
    (place spot : Location) : Prop where
  grows : Grows (fun path => path = dir ∨ Above dir path) cleared grown
  write : StampWrite grown after dir version place spot

theorem created_of_create {state : State}
    (h : create cleared dir version = (after, .ok state)) :
    state = .recreated ∧ Stamped after dir version ∧
      ∃ grown place spot, Created cleared after dir version grown place spot := by
  have hgrows := grows_createDirs cleared dir
  rw [create] at h
  split at h
  case h_1 => cases h
  case h_2 grown hcreate =>
    rw [hcreate] at hgrows
    split at h
    case h_1 => cases h
    case h_2 written hwrite =>
      cases h
      obtain ⟨place, spot, hstamp⟩ := stampWrite_of_write hwrite
      exact ⟨rfl, ⟨_, read_write hwrite, rfl⟩, grown, place, spot, hgrows, hstamp⟩

namespace Created

theorem leads (h : Created cleared after dir version grown place spot) : after.LeadsTo dir place :=
  h.write.keepsWays.leadsTo h.write.leads

/-- What is new, except for the directory and its stamp, is on the way. -/
theorem node_cases (h : Created cleared after dir version grown place spot) (hspot : here ≠ spot)
    (hplace : here ≠ place) :
    after.node? here = cleared.node? here ∨ cleared.node? here = none ∧ OnTheWay after dir here := by
  rw [h.write.node_of_ne hspot]
  refine (h.grows.node here).imp_right ?_
  rintro ⟨hnone, hdirectory, path, rfl | habove, hleads⟩
  · exact absurd (h.write.leads.eq hleads) hplace
  · exact ⟨hnone, h.write.directory hdirectory, path, habove, h.write.keepsWays.leadsTo hleads⟩

/-- No link is new. -/
theorem link_before (h : Created cleared after dir version grown place spot) {text : String}
    (hlink : after.node? here = some (.link text)) : cleared.node? here = some (.link text) := by
  have hspot : here ≠ spot := by
    rintro rfl
    obtain ⟨data, hfile, -⟩ := h.write.node_spot
    rw [hfile] at hlink
    cases hlink
  rw [h.write.node_of_ne hspot] at hlink
  rcases h.grows.node here with hsame | ⟨-, hdirectory, -⟩
  · rwa [hsame] at hlink
  · rw [hdirectory] at hlink
    cases hlink

/-- Unless something was left, the stamp is a file in the directory. -/
theorem spot_eq (h : Created cleared after dir version grown place spot)
    (hwithin : Within cleared tree) (hleft : ¬ Left tree after dir place) :
    spot = place ++ [stampName] := by
  refine h.write.spot_eq fun text hlink => hleft ?_
  have hcleared := h.link_before hlink
  have htree : tree.node? (place ++ [stampName]) = some (.link text) := by
    rw [hwithin.node _ (by rw [hcleared]; exact nofun), hcleared]
  refine ⟨_, List.prefix_append _ _, ne_stamp place, by rw [htree]; exact nofun, hlink.trans htree.symm,
    ?_, ?_⟩
  · rintro ⟨-, data, hfile⟩
    rw [htree] at hfile
    cases hfile
  · rintro ⟨hdirectory, -⟩
    rw [hlink] at hdirectory
    cases hdirectory

/-- What was there before is nowhere lost and not left in the directory iff only the stamp is in it. -/
theorem restamped_iff (h : Created cleared after dir version grown place spot)
    (hwithin : Within cleared tree) :
    Restamped tree after dir place version ↔
      ¬ (Lost tree after place ∨ Left tree after dir place) := by
  constructor
  · rintro hrestamped (⟨here, hout, hnode, hchanged⟩ | ⟨here, hbelow, hne, hnode, hsame, hstamp, hway⟩)
    · rcases hrestamped.outside here hout with hsame | ⟨hnone, -⟩
      · exact hchanged hsame
      · exact hnode hnone
    · by_cases hhere : here = place ++ [stampName]
      · obtain ⟨data, hfile, -⟩ := hrestamped.stamp
        exact hstamp ⟨hhere, data, by rw [← hsame, hhere, hfile]⟩
      · rcases hrestamped.inside here hbelow hne hhere with hnone | ⟨-, hway'⟩
        · exact hnode (hsame.symm.trans hnone)
        · exact hway hway'
  · rw [not_or]
    rintro ⟨hlost, hleft⟩
    have hspot := h.spot_eq hwithin hleft
    have hbefore : ∀ here, cleared.node? here = none ∨ cleared.node? here = tree.node? here :=
      fun here => by
        by_cases hnone : cleared.node? here = none
        · exact .inl hnone
        · exact .inr (hwithin.node here hnone).symm
    -- first without saying which way comes by the inside of the directory
    have hinside : ∀ here, place <+: here → here ≠ place → here ≠ place ++ [stampName] →
        after.node? here = none ∨ OnTheWay after dir here := by
      intro here hbelow hne hstamp
      rcases h.node_cases (hspot.symm ▸ hstamp) hne with hsame | ⟨-, hway⟩
      · by_contra hnot
        rw [not_or, hsame] at hnot
        have htree := (hbefore here).resolve_left hnot.1
        exact hleft ⟨here, hbelow, hne, htree ▸ hnot.1, hsame.trans htree, fun h => hstamp h.1, hnot.2⟩
      · exact .inr hway
    obtain ⟨data, hfile, hdata⟩ := h.write.node_spot
    rw [hspot] at hfile
    have hlinks : ∀ here text, place <+: here → here ≠ place →
        after.node? here ≠ some (.link text) := by
      intro here text hbelow hne hlink
      by_cases hstamp : here = place ++ [stampName]
      · rw [hstamp, hfile] at hlink
        cases hlink
      · rcases hinside here hbelow hne hstamp with hnone | ⟨hdirectory, -⟩
        · rw [hnone] at hlink
          cases hlink
        · rw [hdirectory] at hlink
          cases hlink
    refine ⟨h.leads, ⟨data, hfile, hdata⟩, fun here hbelow hne hstamp => ?_, fun here hout => ?_⟩
    · refine (hinside here hbelow hne hstamp).imp_right fun hway => ⟨?_, hway⟩
      exact hway.up h.leads hlinks hbelow hne
    · obtain ⟨hne, hstamp⟩ := ne_of_outside hout
      rw [← hspot] at hstamp
      by_cases htree : tree.node? here = none
      · have hcleared : cleared.node? here = none := (hbefore here).elim id fun hsame => hsame.trans htree
        rcases h.node_cases hstamp hne with hsame | ⟨-, hway⟩
        · exact .inl (hsame.trans (hcleared.trans htree.symm))
        · exact .inr ⟨htree, hway⟩
      · left
        by_contra hchanged
        exact hlost ⟨here, hout, htree, hchanged⟩

/-- Where the directory is the one that was emptied, nothing is lost and nothing is left. -/
theorem restamped_of_emptied (h : Created cleared after dir version grown place spot)
    (hemptied : Emptied place tree cleared) : Restamped tree after dir place version := by
  rw [h.restamped_iff hemptied.within, not_or]
  have hcleared : ∀ here, place <+: here → here ≠ place → cleared.node? here = none := hemptied.below
  have hspot : spot = place ++ [stampName] := by
    refine h.write.spot_eq fun text hlink => ?_
    have hbefore := h.link_before hlink
    rw [hcleared _ (List.prefix_append _ _) (ne_stamp place)] at hbefore
    cases hbefore
  constructor
  · rintro ⟨here, hout, hnode, hchanged⟩
    obtain ⟨hne, hstamp⟩ := ne_of_outside hout
    rw [← hspot] at hstamp
    have hsame := hemptied.outside here hout
    rcases h.node_cases hstamp hne with hafter | ⟨hnone, -⟩
    · exact hchanged (hafter.trans hsame)
    · exact hnode (hsame.symm.trans hnone)
  · rintro ⟨here, hbelow, hne, hnode, hsame, hstamp, hway⟩
    by_cases hhere : here = spot
    · obtain ⟨data, hfile, -⟩ := h.write.node_spot
      exact hstamp ⟨hhere.trans hspot, data, by rw [← hsame, hhere, hfile]⟩
    · rcases h.node_cases hhere hne with hafter | ⟨-, hway'⟩
      · exact hnode (hsame.symm.trans (hafter.trans (hcleared here hbelow hne)))
      · exact hway hway'

end Created

/-! ## Preparing the directory -/

theorem removeIfThere_ok (hclosed : tree.Closed) (h : removeIfThere tree dir = (cleared, .ok ())) :
    (∃ removed, tree.ownPlace dir = .ok removed ∧ Emptied removed tree cleared) ∨
      tree.ownPlace dir = .error .notFound ∧ cleared = tree := by
  have hremove : ∃ outcome, tree.removeTree dir = (cleared, outcome) ∧
      (outcome = .ok () ∨ outcome = .error .notFound) := by
    rw [removeIfThere] at h
    split at h
    case h_1 mid hremove =>
      cases h
      exact ⟨_, hremove, .inr rfl⟩
    case h_2 other hother =>
      exact ⟨.ok (), h, .inl rfl⟩
  obtain ⟨outcome, hremove, houtcome⟩ := hremove
  exact removeTree_cases hclosed hremove houtcome

theorem prepareVersion_of_stamped (h : Stamped tree dir version) :
    prepareVersion tree dir version = (tree, .ok .current) :=
  if_pos (readStamp?_eq_some_iff.mpr h)

/-- Without the stamp, success means that the directory was removed and created. -/
theorem prepareVersion_ok {state : State} (hstamp : ¬ Stamped tree dir version)
    (h : prepareVersion tree dir version = (after, .ok state)) :
    ∃ cleared, removeIfThere tree dir = (cleared, .ok ()) ∧
      create cleared dir version = (after, .ok state) := by
  rw [prepareVersion, if_neg fun hread => hstamp (readStamp?_eq_some_iff.mp hread)] at h
  split at h
  case h_1 => cases h
  case h_2 cleared hremove => exact ⟨cleared, hremove, h⟩

/-- A success leaves the stamp. -/
theorem stamped_of_prepareVersion {state : State}
    (h : prepareVersion tree dir version = (after, .ok state)) : Stamped after dir version := by
  by_cases hstamp : Stamped tree dir version
  · rw [prepareVersion_of_stamped hstamp] at h
    cases h
    exact hstamp
  · obtain ⟨cleared, -, hcreate⟩ := prepareVersion_ok hstamp h
    exact (created_of_create hcreate).2.1

theorem prepareVersion_eq_current_iff :
    (prepareVersion tree dir version).2 = .ok .current ↔ Stamped tree dir version := by
  constructor
  · intro h
    by_contra hstamp
    have houtcome : prepareVersion tree dir version =
        ((prepareVersion tree dir version).1, .ok .current) := by rw [← h]
    obtain ⟨cleared, -, hcreate⟩ := prepareVersion_ok hstamp houtcome
    cases (created_of_create hcreate).1
  · intro hstamp
    rw [prepareVersion_of_stamped hstamp]

/-- Where the directory does not undercut its own way, it is created at the place that was emptied. -/
theorem Created.place_eq (h : Created cleared after dir version grown place spot)
    {removed : Location} (hemptied : Emptied removed tree cleared)
    (hentry : (tree.erase removed).entryPlace dir = .ok removed) : place = removed := by
  have hwithin : Within (tree.erase removed) grown := hemptied.within_of_erase.trans h.grows.within
  refine h.write.leads.eq_of_entryPlace (hwithin.keepsWays.entryPlace hentry) fun text hlink => ?_
  rcases h.grows.node removed with hsame | ⟨-, hdirectory, -⟩
  · rcases hemptied.own with hnone | ⟨hdirectory, -⟩
    · rw [hsame, hnone] at hlink
      cases hlink
    · rw [hsame, hdirectory] at hlink
      cases hlink
  · rw [hdirectory] at hlink
    cases hlink

/-- A link in the stamp's place is the only way to lose anything when nothing was removed. -/
theorem Created.left_of_lost (h : Created tree after dir version grown place spot)
    (hlost : Lost tree after place) : Left tree after dir place := by
  by_contra hleft
  obtain ⟨here, hout, hnode, hchanged⟩ := hlost
  have hspot := h.spot_eq ⟨rfl, fun _ _ => rfl⟩ hleft
  obtain ⟨hne, hstamp⟩ := ne_of_outside hout
  rw [← hspot] at hstamp
  rcases h.node_cases hstamp hne with hsame | ⟨hnone, -⟩
  · exact hchanged hsame
  · exact hnode hnone

/-- A recreated directory holds nothing but its stamp, and outside of it nothing is lost, unless the way
to it was missing and led to something afterwards, or went by the directory itself. -/
theorem exists_restamped_iff (hclosed : tree.Closed)
    (h : prepareVersion tree dir version = (after, .ok .recreated)) :
    ∃ place, after.LeadsTo dir place ∧ (Restamped tree after dir place version ↔
      ¬ (tree.ownPlace dir = .error .notFound ∧ Left tree after dir place ∨
        Undercut tree dir ∧ (Lost tree after place ∨ Left tree after dir place))) := by
  have hstamp : ¬ Stamped tree dir version := by
    intro hstamp
    rw [prepareVersion_of_stamped hstamp] at h
    cases h
  obtain ⟨cleared, hremove, hcreate⟩ := prepareVersion_ok hstamp h
  obtain ⟨-, -, grown, place, spot, hcreated⟩ := created_of_create hcreate
  refine ⟨place, hcreated.leads, ?_⟩
  rcases removeIfThere_ok hclosed hremove with ⟨removed, hfound, hemptied⟩ | ⟨hmissing, rfl⟩
  · have hrestamped := hcreated.restamped_iff hemptied.within
    by_cases hundercut : Undercut tree dir
    · rw [hrestamped, hfound]
      simp [hundercut]
    · have hentry : (tree.erase removed).entryPlace dir = .ok removed := by
        by_contra hentry
        exact hundercut ⟨removed, hfound, hentry⟩
      obtain rfl := hcreated.place_eq hemptied hentry
      simp [hcreated.restamped_of_emptied hemptied, hfound, hundercut]
  · have hundercut : ¬ Undercut cleared dir := by
      rintro ⟨place, hplace, -⟩
      rw [hmissing] at hplace
      cases hplace
    rw [hcreated.restamped_iff ⟨rfl, fun _ _ => rfl⟩, or_iff_right_of_imp hcreated.left_of_lost]
    simp [hmissing, hundercut]

/-- The directory is current iff its stamp says so, and then nothing changes. If it is recreated, it
holds nothing but the stamp and everything outside of it is as it was, unless the way to it was missing
and led to something afterwards, or went by the directory itself. After a success the directory is current,
and of no other version. -/
theorem prepareVersion_outcome (hclosed : tree.Closed) {outcome : Except SystemError State}
    (h : prepareVersion tree dir version = (after, outcome)) :
    (outcome = .ok .current ↔ Stamped tree dir version) ∧
      (outcome = .ok .current → after = tree) ∧
      (outcome = .ok .recreated → ∃ place, after.LeadsTo dir place ∧
        (Restamped tree after dir place version ↔
          ¬ (tree.ownPlace dir = .error .notFound ∧ Left tree after dir place ∨
            Undercut tree dir ∧ (Lost tree after place ∨ Left tree after dir place)))) ∧
      ∀ state, outcome = .ok state →
        prepareVersion after dir version = (after, .ok .current) ∧
          ∀ other, other ≠ version → ∀ state', (prepareVersion after dir other).2 = .ok state' →
            state' = .recreated := by
  have hcurrent : outcome = .ok .current ↔ Stamped tree dir version := by
    rw [← prepareVersion_eq_current_iff, h]
  refine ⟨hcurrent, ?_, ?_, ?_⟩
  · intro hstate
    rw [prepareVersion_of_stamped (hcurrent.mp hstate)] at h
    cases h
    rfl
  · rintro rfl
    exact exists_restamped_iff hclosed h
  · rintro state rfl
    have hstamped := stamped_of_prepareVersion h
    refine ⟨prepareVersion_of_stamped hstamped, fun other hother state' hstate' => ?_⟩
    cases state' with
    | recreated => rfl
    | current => exact absurd (hstamped.eq (prepareVersion_eq_current_iff.mp hstate')) hother

/-- A directory of the version before, with a file in it. -/
def staleTree : FileTree :=
  ((withWorkingDirectory ["home"]).addFile "kept/version" (stampBytes 3) false).addFile
    "kept/leftover" [0x6F, 0x6C, 0x64] false

theorem prepareVersion_stale :
    (prepareVersion staleTree "kept" 4).2 = .ok .recreated ∧
      Restamped staleTree (prepareVersion staleTree "kept" 4).1 "kept" ["home", "kept"] 4 := by
  have hrecreated : (prepareVersion staleTree "kept" 4).2 = .ok .recreated := by decide +kernel
  have hclosed : staleTree.Closed := by decide +kernel
  have hfound : staleTree.ownPlace "kept" = .ok ["home", "kept"] := by decide +kernel
  have hentry : (staleTree.erase ["home", "kept"]).entryPlace "kept" = .ok ["home", "kept"] := by
    decide +kernel
  have hleads : (prepareVersion staleTree "kept" 4).1.LeadsTo "kept" ["home", "kept"] := by
    rw [LeadsTo]
    decide +kernel
  have houtcome : prepareVersion staleTree "kept" 4 =
      ((prepareVersion staleTree "kept" 4).1, .ok .recreated) := by rw [← hrecreated]
  obtain ⟨-, -, hrestamped, -⟩ := prepareVersion_outcome hclosed houtcome
  obtain ⟨place, hplace, hiff⟩ := hrestamped rfl
  obtain rfl := hleads.eq hplace
  refine ⟨hrecreated, hiff.mpr ?_⟩
  rw [hfound]
  rintro (⟨hmissing, -⟩ | ⟨⟨removed, hremoved, hnot⟩, -⟩)
  · cases hmissing
  · rw [hfound] at hremoved
    cases hremoved
    exact hnot hentry

/-- With a way to the directory that does not exist, what was in it stays. -/
theorem prepareVersion_keeps_leftover :
    (prepareVersion staleTree "made/../kept" 4).2 = .ok .recreated ∧
      (prepareVersion staleTree "made/../kept" 4).1.read "kept/leftover" = .ok [0x6F, 0x6C, 0x64] ∧
      ∀ place, ¬ Restamped staleTree (prepareVersion staleTree "made/../kept" 4).1 "made/../kept" place 4 := by
  have hleads : (prepareVersion staleTree "made/../kept" 4).1.LeadsTo "made/../kept"
      ["home", "kept"] := by
    rw [LeadsTo]
    decide +kernel
  have hnode : (prepareVersion staleTree "made/../kept" 4).1.node? ["home", "kept", "leftover"] =
      some (.file ⟨[0x6F, 0x6C, 0x64], false, ⟨1700000001, 0⟩⟩) := by decide +kernel
  refine ⟨by decide +kernel, by decide +kernel, fun place hrestamped => ?_⟩
  obtain rfl := hleads.eq hrestamped.leads
  have hinside := hrestamped.inside ["home", "kept", "leftover"] (by decide) (by decide) (by decide)
  rw [OnTheWay, hnode] at hinside
  rcases hinside with hnone | ⟨-, hdirectory, -⟩
  · cases hnone
  · cases hdirectory

end Offload.CacheDirectory

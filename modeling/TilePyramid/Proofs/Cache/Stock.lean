import TilePyramid.Proofs.Cache.Directory
import TilePyramid.Proofs.Files.Stock

/-!
# What a directory cache holds

Below its root, a cache in a directory keeps content at the places of keys. When none of these is on
the way to another, looking up, storing and removing content come to what they come to for a table of
places. Main statements: `Stocked.get_on`, `Stocked.set_on` and `Stocked.purge_on`.
-/

set_option autoImplicit false

namespace TilePyramid.Cache

open Text.Utf8 (Bytes)
open Files (Path Location Tree Spread Clear)
open Files.Tree (OnWay)

namespace Key

/-- The names on the way from the root of a cache to the entry of a key. -/
def way (key : Key) : List String := key.front.flatMap Path.steps

/-- The place of the entry of a key below the root. -/
def place (key : Key) : Location := key.way ++ [toString key.tile.y]

/-- The place of its sibling. -/
def spare (key : Key) : Location := key.way ++ [toString key.tile.y ++ "-tmp"]

/-- The names of a key do not lead out of the root. -/
structure Descends (key : Key) : Prop where
  map : Path.Descends key.map
  layer : ∀ layer ∈ key.layer, Path.Descends layer

theorem Descends.front {key : Key} (descends : key.Descends) :
    ∀ part ∈ key.front, Path.Descends part := by
  intro part member
  simp only [Key.front, List.cons_append, List.mem_cons, List.mem_append, Option.mem_toList,
    List.not_mem_nil, or_false] at member
  rcases member with rfl | member | rfl | rfl
  · exact descends.map
  · exact descends.layer part member
  · exact (Path.ordinary_toString _).descends
  · exact (Path.ordinary_toString _).descends

theorem Descends.parts {key : Key} (descends : key.Descends) :
    ∀ part ∈ key.parts, Path.Descends part := by
  intro part member
  rw [Key.parts_eq, List.mem_append, List.mem_singleton] at member
  rcases member with early | rfl
  · exact descends.front part early
  · exact (Path.ordinary_toString _).descends

theorem busy_parts (key : Key) : Path.busy (key.parts.flatMap Path.names) = key.place := by
  rw [Tree.busy_flatMap_names, Key.parts_eq, List.flatMap_append, Key.place, Key.way,
    List.flatMap_singleton, (Path.ordinary_toString _).steps]

theorem place_ne_nil (key : Key) : key.place ≠ [] := by simp [place]

theorem spare_ne_place (key other : Key) : key.spare ≠ other.place := by
  intro same
  obtain ⟨-, ends⟩ := List.append_inj' same rfl
  have dash : '-' ∈ (toString other.tile.y).toList := by
    rw [← List.singleton_inj.mp ends]
    simp
  exact absurd (Path.isDigit_of_mem_toString dash) (by decide)

theorem ordinary_spare (key : Key) : Path.Ordinary (toString key.tile.y ++ "-tmp") :=
  (Path.ordinary_toString _).append (by decide) (by decide) (by decide)

end Key

theorem entryDirectory_entryPath (root : Path) (key : Key) :
    entryDirectory (entryPath root key) = frontPath root key := by
  obtain ⟨base, ends⟩ := frontPath_eq root key
  rw [entryDirectory, entryPath_eq, ends,
    Path.parent?_of_ordinary (Path.ordinary_toString _) (Path.ordinary_toString _)]
  rfl

/-- A tree of files in which a cache below a root keeps content at places. The root may be missing as
long as there is no content. -/
structure Stocked (root : Path) (floor : Location) (places : Location → Prop)
    (content : Location → Option Bytes) (files : Tree) : Prop where
  home : files.node? files.home = some .directory
  rooted : ∃ base, files.makeDirectories root = (none, base) ∧ base.Opens root floor ∧
    base.Stocks floor places content ∧ ((∀ place, content place = none) ∨ base = files)

/-- A root that can be made, if it is not there, and has nothing in it then. -/
structure EmptyRoot (root : Path) (files : Tree) : Prop where
  home : files.node? files.home = some .directory
  makeable : (files.makeDirectories root).1 = none
  empty : ∀ floor, (files.makeDirectories root).2.Opens root floor →
    ∀ place, place ≠ [] → (files.makeDirectories root).2.node? (floor ++ place) = none

theorem EmptyRoot.exists_stocked {root : Path} {files : Tree} (fresh : EmptyRoot root files)
    (places : Location → Prop) : ∃ floor, Stocked root floor places (fun _ => none) files := by
  have made : files.makeDirectories root = (none, (files.makeDirectories root).2) :=
    Prod.ext fresh.makeable rfl
  obtain ⟨floor, opens⟩ := Tree.opens_of_makeDirectories fresh.home made
  exact ⟨floor, fresh.home, _, made, opens, .of_empty (fresh.empty floor opens) opens.directory,
    .inl fun _ => rfl⟩

/-- A root that is missing in an empty working directory. -/
theorem emptyRoot_tiles : EmptyRoot "tiles" Tree.empty := by
  have made : Tree.empty.makeDirectories "tiles" =
      (none, Tree.empty.put ["work", "tiles"] .directory) := by rfl
  refine ⟨rfl, by rw [made], ?_⟩
  rw [made]
  intro floor opens place inside
  have led : (Tree.empty.put ["work", "tiles"] .directory).follow ["work"] ["tiles"] =
      .ok ["work", "tiles"] := by rfl
  obtain rfl : ["work", "tiles"] = floor := Except.ok.inj (led.symm.trans opens.follows)
  have other : ["work", "tiles"] ++ place ≠ ["work", "tiles"] := by simpa using inside
  rw [Tree.node?_put _ _ _ (by simp), if_neg other]
  simp [Tree.node?, Tree.empty, Table.find?_put]

namespace Stocked

variable {root : Path} {floor : Location} {places : Location → Prop}
  {content : Location → Option Bytes} {files : Tree} {key : Key}

theorem locate_entry {tree : Tree} (opens : tree.Opens (frontPath root key) (floor ++ key.way)) :
    tree.locate (entryPath root key) = .ok (floor ++ key.place) := by
  have ordinary := Path.ordinary_toString key.tile.y
  rw [entryPath_eq, ← join_frontPath root key ordinary, opens.locate ordinary, List.append_assoc]
  rfl

theorem locate_temporary {tree : Tree} (opens : tree.Opens (frontPath root key) (floor ++ key.way)) :
    tree.locate (temporaryPath (entryPath root key)) = .ok (floor ++ key.spare) := by
  rw [temporaryPath, entryPath_eq, String.append_assoc, ← join_frontPath root key key.ordinary_spare,
    opens.locate key.ordinary_spare, List.append_assoc]
  rfl

theorem exists_made (stocked : Stocked root floor places content files) (descends : key.Descends)
    (clear : Clear places key.place) :
    ∃ base next, files.makeDirectories root = (none, base) ∧ base.Opens root floor ∧
      base.Stocks floor places content ∧ ((∀ place, content place = none) ∨ base = files) ∧
      files.makeDirectories (entryDirectory (entryPath root key)) = (none, next) ∧
      base.Grows floor key.way next ∧ next.Opens (frontPath root key) (floor ++ key.way) := by
  obtain ⟨base, made, opens, stocks, fresh⟩ := stocked.rooted
  obtain ⟨next, grown, grows, opened⟩ := Tree.makeDirectories_foldl stocked.home made opens
    descends.front (stocks.passable clear)
  rw [entryDirectory_entryPath]
  exact ⟨base, next, made, opens, stocks, fresh, grown, grows, opened⟩

theorem opens_of_content {place : Location} (stocked : Stocked root floor places content files)
    (cached : content place ≠ none) :
    files.makeDirectories root = (none, files) ∧ files.Opens root floor ∧
      files.Stocks floor places content := by
  obtain ⟨base, made, opens, stocks, fresh⟩ := stocked.rooted
  obtain rfl : base = files := fresh.resolve_left fun empty => cached (empty place)
  exact ⟨made, opens, stocks⟩

/-- Where there is content at the place of a key or beyond it, the directories of the key are there. -/
theorem opens_of_cached {place : Location} (stocked : Stocked root floor places content files)
    (descends : key.Descends) (cached : content place ≠ none) (beyond : key.place <+: place) :
    files.Opens (frontPath root key) (floor ++ key.way) := by
  obtain ⟨-, opens, stocks⟩ := stocked.opens_of_content cached
  refine opens.foldl descends.front ?_
  rintro _ ⟨front, passed, rfl⟩
  have early : front <+: key.place := passed.trans (List.prefix_append _ _)
  refine stocks.closed place cached front (early.trans beyond) ?_
  rintro rfl
  have same : front = key.place := early.eq_of_length_le beyond.length_le
  exact Tree.not_onWay floor key.way _ ⟨front, passed, by rw [same]; rfl⟩

/-- Content is read at its place. Reading fails beyond it and at the directories on the way to it. -/
theorem read_entry_of_content {place : Location} {bytes : Bytes}
    (stocked : Stocked root floor places content files) (descends : key.Descends)
    (cached : content place = some bytes) :
    (place <+: key.place → place ≠ key.place →
      files.read (entryPath root key) = .error .notADirectory) ∧
    (place = key.place → files.read (entryPath root key) = .ok bytes) ∧
    (key.place <+: place → place ≠ key.place →
      files.read (entryPath root key) = .error .isADirectory) := by
  have there : content place ≠ none := by simp [cached]
  obtain ⟨-, opens, stocks⟩ := stocked.opens_of_content there
  have file := (stocks.files place bytes).mpr cached
  refine ⟨fun above other => ?_, ?_, fun beyond other => ?_⟩
  · have descend := descends.parts
    have whole : '\x00' ∉ (entryPath root key).toList := Tree.not_mem_foldl_join descend opens.whole
    have some : (entryPath root key).toList ≠ [] := by simp [entryPath_eq]
    have follows : files.follow (files.start (entryPath root key)) (Path.names (entryPath root key)) =
        .error .notADirectory := by
      refine (opens.follow_foldl descend).trans ?_
      rw [← key.busy_parts] at above other
      refine Tree.follow_of_file (Tree.not_mem_flatMap_names descend) above other ?_ file
      rintro _ ⟨front, passed, rfl⟩ different
      exact stocks.closed place there front passed fun same => different (by rw [same])
    simp only [Tree.read, Tree.locate, if_neg whole, if_neg some, follows, bind, Except.bind]
  · rintro rfl
    have opened := stocked.opens_of_cached descends there List.prefix_rfl
    have holds : files.node? (floor ++ key.place) = (some bytes).map .file := file
    exact Tree.read_of_locate (locate_entry opened) holds
  · have opened := stocked.opens_of_cached descends there beyond
    have directory := stocks.closed place there key.place beyond (Ne.symm other)
    simp only [Tree.read, locate_entry opened, bind, Except.bind, directory]

theorem read_entry (stocked : Stocked root floor places content files) (descends : key.Descends)
    (clear : Clear places key.place) :
    files.read (entryPath root key) = (content key.place).elim (.error .notFound) .ok := by
  cases cached : content key.place with
  | none =>
      obtain ⟨base, next, -, -, stocks, -, made, grows, opened⟩ := stocked.exists_made descends clear
      have holds := stocks.node?_of_clear clear key.place_ne_nil
      have unmade := grows.elsewhere (floor ++ key.place) (Tree.not_onWay floor key.way _)
      rw [cached, ← unmade] at holds
      exact (Tree.read_before_made made (locate_entry opened) holds).1.elim id id
  | some bytes =>
      obtain ⟨-, there, -⟩ := stocked.read_entry_of_content descends cached
      exact there rfl

theorem listed {place : Location} (stocked : Stocked root floor places content files)
    (cached : content place ≠ none) : places place :=
  (stocked.opens_of_content cached).2.2.listed place cached

section Performing

variable {source : Map → Tile → SourceReply} {maxZoom : Option Nat} {world : World} {bytes : Bytes}

theorem get_on_snd : (((directory root maxZoom).get key).on source world).2 = world := by
  simp only [directory, Action.of, Program.bind_eq, Program.ask_bind, Program.done_bind,
    Action.on_ask, World.perform]
  rcases world.files.read (entryPath root key) with fault | content
  · cases fault <;> rfl
  · rfl

theorem get_on (stocked : Stocked root floor places content world.files) (descends : key.Descends)
    (clear : Clear places key.place) :
    ((directory root maxZoom).get key).on source world = (.ok (content key.place), world) :=
  Prod.ext (answer_of_read (stocked.read_entry descends clear)) get_on_snd

/-- Where content meets the place of a key, looking up does not tell that there is none. -/
theorem answer_ne_none {place : Location} (stocked : Stocked root floor places content world.files)
    (descends : key.Descends) (cached : content place ≠ none)
    (meets : place <+: key.place ∨ key.place <+: place) :
    answer source (directory root maxZoom) key world ≠ .ok none := by
  obtain ⟨bytes, held⟩ := Option.ne_none_iff_exists'.mp cached
  obtain ⟨above, there, beyond⟩ := stocked.read_entry_of_content descends held
  rw [answer_directory]
  by_cases same : place = key.place
  · rw [there same]
    nofun
  · rcases meets with meets | meets
    · rw [above meets same]
      nofun
    · rw [beyond meets same]
      nofun

theorem set_on_of_deep (deep : keeps maxZoom key.tile.level = false) :
    ((directory root maxZoom).set key bytes).on source world = (.ok (), world) := by
  simp [directory, deep]

theorem preparing_on {site : Site} {contents : Contents} (holds : site.Holds contents site.tree)
    (made : world.files.makeDirectories (entryDirectory site.path) = (none, site.tree)) :
    ∃ files, (preparing site.path bytes).on source world = (.ok (), { world with files }) ∧
      site.Holds ⟨some bytes, none⟩ files := by
  obtain ⟨written, wrote, holdsWritten⟩ := holds.write bytes
  obtain ⟨moved, put, holdsMoved⟩ := holdsWritten.move rfl
  refine ⟨moved, ?_, holdsMoved⟩
  simp only [preparing, writing, moving, Action.on_ask, World.perform, World.changeFiles, made,
    wrote, put, Action.on_done]

/-- Content is not stored where the sibling of the entry is a directory. -/
theorem preparing_on_of_directory (source : Map → Tile → SourceReply) (bytes : Bytes) {path : Path}
    {next : Tree} {temporary : Location}
    (made : world.files.makeDirectories (entryDirectory path) = (none, next))
    (located : next.locate (temporaryPath path) = .ok temporary)
    (directory : next.node? temporary = some .directory) :
    (preparing path bytes).on source world =
      (.error (fileReport "writing cached tile" (temporaryPath path) .isADirectory),
        { world with files := next }) := by
  simp only [preparing, writing, Action.on_ask, World.perform, World.changeFiles, made, Tree.write,
    located, bind, Except.bind, directory, Action.on_done]

/-- A tree with all directories that were there when the root had been made. -/
theorem of_made {tree base : Tree} (home : tree.node? tree.home = some .directory)
    (made : tree.makeDirectories root = (none, base)) (opens : base.Opens root floor)
    (more : base.DirectoriesIn files) (stocks : files.Stocks floor places content) :
    Stocked root floor places content files := by
  have first := Tree.directoriesIn_makeDirectories tree root
  rw [made] at first
  refine ⟨?_, files, Tree.makeDirectories_of_made made more, opens.mono more, stocks, .inr rfl⟩
  rw [← more.home, ← first.home]
  exact more.kept _ (first.kept _ home)

/-- The site of a key where there is nothing at the place of its sibling. -/
def site {tree : Tree} {held : Option Bytes} (opens : tree.Opens (frontPath root key) (floor ++ key.way))
    (made : tree.makeDirectories (entryDirectory (entryPath root key)) = (none, tree))
    (entry : tree.node? (floor ++ key.place) = held.map .file)
    (vacant : tree.node? (floor ++ key.spare) = none) : Site where
  path := entryPath root key
  tree
  entry := floor ++ key.place
  temporary := floor ++ key.spare
  made
  entryFound := locate_entry opens
  temporaryFound := locate_temporary opens
  entryFree := by rw [entry]; cases held <;> nofun
  temporaryFree := by rw [vacant]; nofun
  apart same := key.spare_ne_place key (List.append_cancel_left same).symm

/-- Once content was stored at a site, it is the content of the place of the key. -/
theorem stocks_of_holds {site : Site} (stocks : site.tree.Stocks floor places content)
    (spread : Spread places) (listed : places key.place)
    (way : ∀ place, OnWay floor key.way place → site.tree.node? place = some .directory)
    (entry : site.entry = floor ++ key.place) (temporary : site.temporary = floor ++ key.spare)
    (vacant : site.tree.node? (floor ++ key.spare) = none) (holds : site.Holds ⟨some bytes, none⟩ files) :
    files.Stocks floor places (Function.update content key.place (some bytes)) := by
  refine stocks.update spread listed key.place_ne_nil ?_ (entry ▸ holds.entry) fun other aside => ?_
  · intro _ front passed other
    have early := (List.prefix_concat_iff.mp passed).resolve_left other
    exact way _ ⟨front, early, rfl⟩
  · by_cases same : other = key.spare
    · rw [same, vacant]
      exact temporary ▸ holds.temporary
    · refine holds.elsewhere _ ?_ ?_
      · exact fun reached => aside (List.append_cancel_left (reached.trans entry))
      · exact fun reached => same (List.append_cancel_left (reached.trans temporary))

/-- Storing content at the place of a key succeeds, unless the sibling is on the way to another place
and there is a directory. -/
theorem set_on (source : Map → Tile → SourceReply) (bytes : Bytes)
    (stocked : Stocked root floor places content world.files) (spread : Spread places)
    (descends : key.Descends) (kept : keeps maxZoom key.tile.level = true)
    (listed : places key.place) (unlisted : ¬ places key.spare) :
    ∃ result files, ((directory root maxZoom).set key bytes).on source world =
        (result, { world with files }) ∧
      (result = .ok () ∧
          Stocked root floor places (Function.update content key.place (some bytes)) files ∨
        (∃ other, places other ∧ key.spare <+: other) ∧ Stocked root floor places content files) := by
  obtain ⟨base, next, first, opens, stocks, -, made, grows, opened⟩ :=
    stocked.exists_made descends (spread.clear listed)
  have kin := stocks.grows spread listed grows
  rw [set_eq root kept]
  -- Content is written to the sibling first, so what lies there decides.
  rcases found : next.node? (floor ++ key.spare) with _ | ⟨other⟩ | _
  · have entry := kin.node?_of_clear (spread.clear listed) key.place_ne_nil
    let site := site opened (Tree.makeDirectories_of_made made (.refl next)) entry found
    have holds : site.Holds ⟨content key.place, none⟩ site.tree :=
      ⟨rfl, fun _ _ _ => rfl, entry, found⟩
    obtain ⟨files, stored, after⟩ := preparing_on holds made
    have more : next.DirectoriesIn files := after.directoriesIn
    have contains := stocks_of_holds kin spread listed grows.made rfl rfl found after
    refine ⟨.ok (), files, stored, .inl ⟨rfl, ?_⟩⟩
    exact of_made stocked.home first opens (grows.directoriesIn.trans more) contains
  · have cached := (kin.files key.spare other).mp found
    exact absurd (kin.listed key.spare (by simp [cached])) unlisted
  · obtain ⟨other, listedOther, beyond, -⟩ := kin.directories key.spare (by simp [Key.spare]) found
    have refused := preparing_on_of_directory source bytes made (locate_temporary opened) found
    refine ⟨_, next, refused, .inr ⟨⟨other, listedOther, beyond⟩, ?_⟩⟩
    exact of_made stocked.home first opens grows.directoriesIn kin

/-- Removing the content of the place of a key succeeds, also when there is none. -/
theorem purge_on (source : Map → Tile → SourceReply) (maxZoom : Option Nat)
    (stocked : Stocked root floor places content world.files) (spread : Spread places)
    (descends : key.Descends) (clear : Clear places key.place) :
    ∃ files, ((directory root maxZoom).purge key).on source world = (.ok (), { world with files }) ∧
      Stocked root floor places (Function.update content key.place none) files := by
  cases cached : content key.place with
  | none =>
      have read := stocked.read_entry descends clear
      rw [cached] at read
      refine ⟨world.files, ?_, ?_⟩
      · rw [directory_purge_on, Tree.remove_of_read read]
      · rw [← cached, Function.update_eq_self]
        exact stocked
  | some bytes =>
      have there : content key.place ≠ none := by simp [cached]
      obtain ⟨made, opens, stocks⟩ := stocked.opens_of_content there
      have opened := stocked.opens_of_cached descends there List.prefix_rfl
      have holds := stocks.node?_of_clear clear key.place_ne_nil
      rw [cached] at holds
      have inside : floor ++ key.place ≠ [] := by simp [Key.place]
      have removed : world.files.remove (entryPath root key) =
          .ok (world.files.erase (floor ++ key.place)) := by
        simp only [Tree.remove, locate_entry opened, bind, Except.bind, holds, Option.map_some]
      refine ⟨world.files.erase (floor ++ key.place), ?_, ?_⟩
      · rw [directory_purge_on, removed]
      · have listed : places key.place := stocked.listed there
        refine of_made stocked.home made opens ⟨rfl, fun location found => ?_⟩ ?_
        · rw [Tree.node?_erase _ _ inside, if_neg]
          · exact found
          · rintro rfl
            rw [holds] at found
            cases found
        · refine stocks.update spread listed key.place_ne_nil (absurd rfl) ?_ fun other aside => ?_
          · rw [Tree.node?_erase _ _ inside, if_pos rfl]
            rfl
          · rw [Tree.node?_erase _ _ inside,
              if_neg fun reached => aside (List.append_cancel_left reached)]

end Performing

end Stocked

end TilePyramid.Cache

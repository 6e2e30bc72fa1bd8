import Jukebox.Http.Response
import Jukebox.Library.View
import Jukebox.Playback.Requests
import Jukebox.Proofs.Json.Compact
import Jukebox.Proofs.Text.Base64
/-!
# Views come back

For every view there is a reader that makes it out of the text of the response: the status, a file,
several files, and a listing. So no two views have the same text. What keeps them apart is which
keys are there: the track and the year are told with all tags, even empty ones, and the position and
the length with all files that play.
-/
namespace Jukebox.Library

open Json (Members Value)

section Readers

def textUnder (v : Value) (key : String) : Option String :=
  (v.member? key).bind Value.text?

def numberUnder (v : Value) (key : String) : Option Nat :=
  (v.member? key).bind Value.natural?

/-- The tags in an object; there are none without a track and a year. -/
def TagView.read? (v : Value) : Option TagView :=
  match numberUnder v "track", numberUnder v "year" with
  | some track, some year =>
    some
      { title := textUnder v "title"
        artist := textUnder v "artist"
        album := textUnder v "album"
        comment := textUnder v "comment"
        genre := textUnder v "genre"
        track := UInt32.ofNat track
        year := UInt32.ofNat year
        picture := textUnder v "picture"
        mime := textUnder v "mime" }
  | _, _ => none

def FileView.read? (v : Value) : Option FileView :=
  (textUnder v "file").map fun file => ⟨file, TagView.read? v⟩

/-- The status in an object; without a position and a length there is no playback. -/
def Status.read? (v : Value) : Option Status :=
  match numberUnder v "pos", numberUnder v "length" with
  | some position, some length =>
    (FileView.read? v).map fun info => .active info (UInt64.ofNat position) (UInt64.ofNat length)
  | _, _ => some (.idle (textUnder v "file"))

def readFiles? (v : Value) : Option (List FileView) :=
  v.items.mapM FileView.read?

def Listing.read? (v : Value) : Option Listing := do
  let directories ← (← v.member? "directory").items.mapM Value.text?
  let files ← readFiles? (← v.member? "file")
  return ⟨directories, files⟩

def decode? {α : Type} (read? : Value → Option α) (text : String) : Option α :=
  (Value.parse? text).bind read?

/-- The cover art of tags that are told with it. -/
def TagView.art? (v : TagView) : Option Picture := do
  let text ← v.picture
  let data ← Text.Base64.decode text.toList
  return ⟨data, v.mime⟩

/-- The tags that were told, cover art included. -/
def TagView.tags (v : TagView) : Tags :=
  ⟨v.title, v.artist, v.album, v.comment, v.genre, v.track, v.year, v.art?⟩

end Readers

/-- Whatever the status of a response, its body is read back as what it tells, and no object in it
repeats a key. -/
def Faithful {α : Type} (read? : Value → Option α) (toJson : α → Value) : Prop :=
  ∀ (status : Nat) (a : α),
    (Http.Response.json status (toJson a)).body.bind (decode? read?) = some a ∧
      (toJson a).KeysOnce

/-- A value whose text can be read back: its numbers are legible, it nests no deeper than so many
levels, and no object in it repeats a key. -/
structure Clear (levels : Nat) (v : Value) : Prop where
  legible : v.Legible
  depth_le : v.depth ≤ levels
  keysOnce : v.KeysOnce

namespace Clear

variable {levels : Nat}

theorem mono {v : Value} (clear : Clear levels v) {more : Nat} (fewer : levels ≤ more) :
    Clear more v :=
  ⟨clear.legible, clear.depth_le.trans fewer, clear.keysOnce⟩

theorem array {items : List Value} (each : ∀ v ∈ items, Clear levels v) :
    Clear (levels + 1) (.array items) where
  legible := Json.allLegible_iff.mpr fun v there => (each v there).legible
  depth_le := Nat.succ_le_succ (Json.deepest_le_iff.mpr fun v there => (each v there).depth_le)
  keysOnce := Json.allKeysOnce_iff.mpr fun v there => (each v there).keysOnce

theorem object {members : List (String × Value)} (once : (members.map Prod.fst).Nodup)
    (each : ∀ m ∈ members, Clear levels m.2) : Clear (levels + 1) (.object members) where
  legible := Json.membersLegible_iff.mpr fun m there => (each m there).legible
  depth_le := Nat.succ_le_succ (Json.deepestMember_le_iff.mpr fun m there =>
    (each m there).depth_le)
  keysOnce := ⟨once, Json.membersKeysOnce_iff.mpr fun m there => (each m there).keysOnce⟩

end Clear

inductive Plain : Value → Prop
  | null : Plain .null
  | string (s : String) : Plain (.string s)
  | nat {n : Nat} (fits : n < 2 ^ 64) : Plain (.nat n)

namespace Plain

variable {v : Value}

theorem clear (plain : Plain v) : Clear 0 v := by
  cases plain with
  | null => exact ⟨trivial, le_rfl, trivial⟩
  | string s => exact ⟨trivial, le_rfl, trivial⟩
  | nat fits =>
    refine ⟨Json.Number.rereads_integer ⟨?_, ?_⟩, le_rfl, trivial⟩
    · unfold Json.leastInteger
      omega
    · unfold Json.greatestInteger
      omega

theorem ordered_eq (plain : Plain v) : v.ordered = v := by
  cases plain <;> rfl

end Plain

structure Record (members : List (String × Value)) : Prop where
  plain : ∀ m ∈ members, Plain m.2
  once : (members.map Prod.fst).Nodup

namespace Record

variable {members : List (String × Value)}

theorem clear (record : Record members) : Clear 1 (.object members) :=
  .object record.once fun m there => (record.plain m there).clear

/-- What is read under a key is what was told under it. -/
theorem member?_eq (record : Record members) (key : String) :
    (Value.object members).ordered.member? key = Members.find? key members := by
  rw [Json.member?_ordered record.once]
  cases found : Members.find? key members with
  | none => rfl
  | some v =>
    have plain : Plain v := record.plain _ (Members.mem_of_find? found)
    rw [Option.map_some, plain.ordered_eq]

end Record

/-- Views come back whose values do, read as they are ordered by the reader of texts. -/
theorem Faithful.intro {α : Type} {read? : Value → Option α} {toJson : α → Value}
    (clear : ∀ a, Clear Json.maxDepth (toJson a))
    (read : ∀ a, read? (toJson a).ordered = some a) : Faithful read? toJson := by
  intro status a
  have decoded : decode? read? (toJson a).toText = some a := by
    rw [decode?, Json.parse?_toText (clear a).legible (clear a).depth_le]
    exact read a
  exact ⟨decoded, (clear a).keysOnce⟩

/-- So two of them that differ have different texts. -/
theorem Faithful.injective {α : Type} {read? : Value → Option α} {toJson : α → Value}
    (faithful : Faithful read? toJson) {a b : α} (same : (toJson a).toText = (toJson b).toText) :
    a = b := by
  have first : decode? read? (toJson a).toText = some a := (faithful 200 a).1
  have second : decode? read? (toJson b).toText = some b := (faithful 200 b).1
  exact Option.some.inj (first.symm.trans (same ▸ second))

section Tags

def tagKeys : List String :=
  ["title", "artist", "album", "comment", "genre", "track", "year", "picture", "mime"]

theorem textMember_keys (name : String) (t : Option String) :
    ((TagView.textMember name t).map Prod.fst).Sublist [name] := by
  cases t with
  | none => exact List.nil_sublist _
  | some s => exact List.Sublist.refl _

theorem textMember_plain (name : String) (t : Option String) :
    ∀ m ∈ TagView.textMember name t, Plain m.2 := by
  cases t with
  | none => exact List.forall_mem_nil _
  | some s => exact List.forall_mem_singleton.mpr (.string s)

theorem find?_textMember (key name : String) (t : Option String) :
    Members.find? key (TagView.textMember name t) =
      if name = key then t.map .string else none := by
  cases t with
  | none => simp [TagView.textMember, Members.find?]
  | some s => simp [TagView.textMember, Members.find?]

namespace TagView

theorem keys_sublist (v : TagView) : (v.members.map Prod.fst).Sublist tagKeys := by
  simp only [members, List.map_append]
  have numbers : ([("track", Value.nat v.track.toNat), ("year", Value.nat v.year.toNat)].map
      Prod.fst).Sublist ["track", "year"] := List.Sublist.refl _
  exact ((((((textMember_keys "title" _).append (textMember_keys "artist" _)).append
    (textMember_keys "album" _)).append (textMember_keys "comment" _)).append
    (textMember_keys "genre" _)).append numbers).append (textMember_keys "picture" _) |>.append
    (textMember_keys "mime" _)

theorem members_plain (v : TagView) : ∀ m ∈ v.members, Plain m.2 := by
  have track : v.track.toNat < 2 ^ 64 := Nat.lt_trans v.track.toNat_lt (by decide)
  have year : v.year.toNat < 2 ^ 64 := Nat.lt_trans v.year.toNat_lt (by decide)
  simp only [members, List.forall_mem_append]
  refine ⟨⟨⟨⟨⟨⟨⟨textMember_plain _ _, textMember_plain _ _⟩, textMember_plain _ _⟩,
    textMember_plain _ _⟩, textMember_plain _ _⟩, ?_⟩, textMember_plain _ _⟩, textMember_plain _ _⟩
  exact List.forall_mem_cons.mpr ⟨.nat track, List.forall_mem_singleton.mpr (.nat year)⟩

/-- What is under each of the keys. -/
theorem find?_members (v : TagView) :
    Members.find? "title" v.members = v.title.map .string ∧
    Members.find? "artist" v.members = v.artist.map .string ∧
    Members.find? "album" v.members = v.album.map .string ∧
    Members.find? "comment" v.members = v.comment.map .string ∧
    Members.find? "genre" v.members = v.genre.map .string ∧
    Members.find? "track" v.members = some (.nat v.track.toNat) ∧
    Members.find? "year" v.members = some (.nat v.year.toNat) ∧
    Members.find? "picture" v.members = v.picture.map .string ∧
    Members.find? "mime" v.members = v.mime.map .string := by
  simp [members, Members.find?_append, find?_textMember, Members.find?]

/-- The tags are read from an object that has their members under their keys. -/
theorem read?_eq {v : TagView} {object : Value}
    (told : ∀ key ∈ tagKeys, object.member? key = Members.find? key v.members) :
    read? object = some v := by
  have text {key : String} {t : Option String} (there : key ∈ tagKeys)
      (found : Members.find? key v.members = t.map .string) : textUnder object key = t := by
    rw [textUnder, told key there, found]
    cases t <;> rfl
  have number {key : String} {n : Nat} (there : key ∈ tagKeys)
      (found : Members.find? key v.members = some (.nat n)) :
      numberUnder object key = some n := by
    rw [numberUnder, told key there, found]
    rfl
  obtain ⟨title, artist, album, comment, genre, track, year, picture, mime⟩ := find?_members v
  rw [read?, number (by decide) track, number (by decide) year, text (by decide) title,
    text (by decide) artist, text (by decide) album, text (by decide) comment,
    text (by decide) genre, text (by decide) picture, text (by decide) mime]
  simp

end TagView

end Tags

section Files

def fileKeys : List String :=
  "file" :: tagKeys

namespace FileView

theorem keys_sublist (v : FileView) : (v.members.map Prod.fst).Sublist fileKeys := by
  obtain ⟨file, _ | tags⟩ := v
  · exact (List.nil_sublist tagKeys).cons_cons "file"
  · exact tags.keys_sublist.cons_cons "file"

theorem members_plain (v : FileView) : ∀ m ∈ v.members, Plain m.2 := by
  obtain ⟨file, _ | tags⟩ := v
  · exact List.forall_mem_singleton.mpr (.string file)
  · exact List.forall_mem_cons.mpr ⟨.string file, tags.members_plain⟩

theorem record (v : FileView) : Record v.members where
  plain := v.members_plain
  once := v.keys_sublist.nodup (by decide)

/-- There is nothing under other keys. -/
theorem find?_other (v : FileView) {key : String} (other : key ∉ fileKeys) :
    Members.find? key v.members = none := by
  refine Members.find?_eq_none fun m there same => other ?_
  exact same ▸ v.keys_sublist.subset (List.mem_map_of_mem there)

/-- The file is read from an object that has its members under their keys. -/
theorem read?_eq {v : FileView} {object : Value}
    (told : ∀ key ∈ fileKeys, object.member? key = Members.find? key v.members) :
    read? object = some v := by
  have file : textUnder object "file" = some v.file := by
    rw [textUnder, told "file" (by decide)]
    rfl
  have tags : TagView.read? object = v.tags := by
    obtain ⟨name, _ | tags⟩ := v
    · have track : numberUnder object "track" = none := by
        rw [numberUnder, told "track" (by decide)]
        rfl
      rw [TagView.read?, track]
    · refine TagView.read?_eq fun key there => ?_
      have apart : "file" ≠ key := fun same => absurd (same ▸ there) (by decide)
      rw [told key (List.mem_cons_of_mem _ there)]
      exact if_neg apart
  rw [read?, file, tags]
  rfl

theorem read?_ordered (v : FileView) : read? v.toJson.ordered = some v :=
  read?_eq fun key _ => v.record.member?_eq key

theorem faithful : Faithful read? toJson :=
  .intro (fun v => v.record.clear.mono (by decide)) read?_ordered

end FileView

theorem mapM_map_some {α β : Type} {read? : β → Option α} {tell : α → β}
    (read : ∀ a, read? (tell a) = some a) (items : List α) :
    (items.map tell).mapM read? = some items := by
  induction items with
  | nil => rfl
  | cons a rest ih => simp [List.mapM_cons, read, ih]

theorem readFiles?_ordered (files : List FileView) :
    readFiles? (Value.array (files.map (·.toJson))).ordered = some files := by
  have items : (Value.array (files.map (·.toJson))).ordered.items =
      files.map fun v => v.toJson.ordered := by
    rw [Value.ordered, Value.items, Json.orderedItems_eq_map, List.map_map]
    rfl
  rw [readFiles?, items]
  exact mapM_map_some FileView.read?_ordered files

end Files

section Playback

def activeMembers (info : FileView) (position length : UInt64) : List (String × Value) :=
  info.members ++ [("pos", .nat position.toNat), ("length", .nat length.toNat)]

theorem active_record (info : FileView) (position length : UInt64) :
    Record (activeMembers info position length) where
  plain := by
    have position_fits : position.toNat < 2 ^ 64 := position.toNat_lt
    have length_fits : length.toNat < 2 ^ 64 := length.toNat_lt
    refine List.forall_mem_append.mpr ⟨info.members_plain, ?_⟩
    exact List.forall_mem_cons.mpr
      ⟨.nat position_fits, List.forall_mem_singleton.mpr (.nat length_fits)⟩
  once := by
    have keys : ((activeMembers info position length).map Prod.fst).Sublist
        (fileKeys ++ ["pos", "length"]) := by
      rw [activeMembers, List.map_append]
      exact info.keys_sublist.append (List.Sublist.refl _)
    exact keys.nodup (by decide)

theorem idle_record (file : Option String) : Record [("file", Value.string? file)] where
  plain := by
    refine List.forall_mem_singleton.mpr ?_
    cases file with
    | none => exact .null
    | some name => exact .string name
  once := List.nodup_singleton _

namespace Status

theorem read?_ordered (s : Status) : read? s.toJson.ordered = some s := by
  cases s with
  | idle file =>
    have member (key : String) := (idle_record file).member?_eq key
    have position : numberUnder (idle file).toJson.ordered "pos" = none := by
      rw [numberUnder, toJson, member]
      rfl
    have name : textUnder (idle file).toJson.ordered "file" = file := by
      rw [textUnder, toJson, member]
      cases file <;> rfl
    rw [read?, position, name]
  | active info position length =>
    have member (key : String) := (active_record info position length).member?_eq key
    have number {key : String} {n : Nat} (other : key ∉ fileKeys)
        (found : Members.find? key
          [("pos", .nat position.toNat), ("length", .nat length.toNat)] = some (.nat n)) :
        numberUnder (active info position length).toJson.ordered key = some n := by
      rw [numberUnder, toJson, ← activeMembers, member, activeMembers, Members.find?_append,
        info.find?_other other, found]
      rfl
    have file : FileView.read? (active info position length).toJson.ordered = some info := by
      refine FileView.read?_eq fun key there => ?_
      have apart : ∀ key ∈ fileKeys, "pos" ≠ key ∧ "length" ≠ key := by decide
      obtain ⟨no_position, no_length⟩ := apart key there
      rw [toJson, ← activeMembers, member, activeMembers, Members.find?_append]
      simp [Members.find?, no_position, no_length]
    rw [read?, number (by decide) rfl, number (by decide) rfl, file]
    simp

theorem toJson_clear (s : Status) : Clear 1 s.toJson := by
  cases s with
  | idle file => exact (idle_record file).clear
  | active info position length => exact (active_record info position length).clear

theorem faithful : Faithful read? toJson :=
  .intro (fun s => s.toJson_clear.mono (by decide)) read?_ordered

end Status

end Playback

section Listings

theorem files_clear (files : List FileView) : Clear 2 (.array (files.map (·.toJson))) :=
  .array (List.forall_mem_map.mpr fun v _ => v.record.clear)

theorem names_clear (names : List String) : Clear 1 (.array (names.map .string)) :=
  .array (List.forall_mem_map.mpr fun name _ => (Plain.string name).clear)

theorem playlist_faithful : Faithful readFiles? Playback.Request.playlistJson :=
  .intro (fun files => (files_clear files).mono (by decide)) readFiles?_ordered

namespace Listing

theorem read?_ordered (l : Listing) : read? l.toJson.ordered = some l := by
  have member (key : String) : l.toJson.ordered.member? key =
      (Members.find? key [("directory", .array (l.directories.map .string)),
        ("file", .array (l.files.map (·.toJson)))]).map Value.ordered :=
    Json.member?_ordered (by simp) key
  have name (text : String) : Value.text? (Value.ordered (.string text)) = some text := rfl
  have names : (Value.array (l.directories.map .string)).ordered.items.mapM Value.text? =
      some l.directories := by
    rw [Value.ordered, Value.items, Json.orderedItems_eq_map, List.map_map]
    exact mapM_map_some name l.directories
  have directory : l.toJson.ordered.member? "directory" =
      some (Value.array (l.directories.map .string)).ordered := member "directory"
  have file : l.toJson.ordered.member? "file" =
      some (Value.array (l.files.map (·.toJson))).ordered := member "file"
  rw [read?, directory, file]
  simp [names, readFiles?_ordered]

theorem toJson_clear (l : Listing) : Clear 3 l.toJson := by
  refine .object (by simp) (List.forall_mem_cons.mpr ⟨?_, List.forall_mem_singleton.mpr ?_⟩)
  · exact (names_clear l.directories).mono (by decide)
  · exact files_clear l.files

theorem faithful : Faithful read? toJson :=
  .intro (fun l => l.toJson_clear.mono (by decide)) read?_ordered

end Listing

end Listings

/-- Tags that were told with their cover art come back with it, byte by byte. -/
theorem TagView.tags_complete (t : Tags) : (complete t).tags = t := by
  obtain ⟨title, artist, album, comment, genre, track, year, _ | ⟨data, mime⟩⟩ := t
  · rfl
  · have text : (Picture.encoded ⟨data, mime⟩).toList = Text.Base64.encode data :=
      String.toList_ofList
    have read : Text.Base64.decode (Picture.encoded ⟨data, mime⟩).toList = some data := by
      rw [text, Text.Base64.decode_encode]
    simp [tags, art?, complete, withPicture, ofTags, read]

section Apart

/-- Objects of one text have the same under each key. -/
theorem Record.find?_eq {told told' : List (String × Value)} (record : Record told)
    (record' : Record told') (same : (Value.object told).toText = (Value.object told').toText)
    (key : String) : Members.find? key told = Members.find? key told' := by
  have read : some (Value.object told).ordered = some (Value.object told').ordered := by
    rw [← Json.parse?_toText record.clear.legible (record.clear.depth_le.trans (by decide)),
      ← Json.parse?_toText record'.clear.legible (record'.clear.depth_le.trans (by decide)), same]
  rw [← record.member?_eq, ← record'.member?_eq, Option.some.inj read]

theorem find?_file (v : FileView) : Members.find? "file" v.members = some (.string v.file) :=
  rfl

theorem find?_track (file : String) (tags : TagView) :
    Members.find? "track" (FileView.members ⟨file, some tags⟩) = some (.nat tags.track.toNat) :=
  tags.find?_members.2.2.2.2.2.1

theorem find?_position (info : FileView) (position length : UInt64) :
    Members.find? "pos" (activeMembers info position length) = some (.nat position.toNat) := by
  rw [activeMembers, Members.find?_append, info.find?_other (by decide)]
  rfl

/-- No file is told as the stopped status is. -/
theorem file_ne_stopped (v : FileView) : v.toJson.toText ≠ Status.stopped.toJson.toText := by
  intro same
  have found := v.record.find?_eq (idle_record none) same "file"
  rw [find?_file] at found
  cases found

/-- No file is told as a status of playback is, which has a position. -/
theorem file_ne_active (v info : FileView) (position length : UInt64) :
    v.toJson.toText ≠ (Status.active info position length).toJson.toText := by
  intro same
  have found := v.record.find?_eq (active_record info position length) same "pos"
  rw [v.find?_other (by decide), find?_position] at found
  cases found

/-- Tags are told even if none of them is set. -/
theorem untagged_ne_tagged (file file' : String) (tags : TagView) :
    (FileView.mk file none).toJson.toText ≠ (FileView.mk file' (some tags)).toJson.toText := by
  intro same
  have found := (FileView.record ⟨file, none⟩).find?_eq (FileView.record ⟨file', some tags⟩) same
    "track"
  rw [find?_track] at found
  cases found

theorem stopped_ne_active (info : FileView) (position length : UInt64) :
    Status.stopped.toJson.toText ≠ (Status.active info position length).toJson.toText := by
  intro same
  cases Status.faithful.injective same

end Apart

/-- The views lose nothing: each kind is read back from its response, cover art included. A file
without tags, one with any tags at all, stopped playback and running playback are always told in
different words. -/
theorem views_faithful :
    Faithful Status.read? Status.toJson ∧
    Faithful FileView.read? FileView.toJson ∧
    Faithful readFiles? Playback.Request.playlistJson ∧
    Faithful Listing.read? Listing.toJson ∧
    (∀ t : Tags, (TagView.complete t).tags = t) ∧
    ∀ (info : FileView) (position length : UInt64) (file file' : String) (tags : TagView),
      [(FileView.mk file none).toJson.toText, (FileView.mk file' (some tags)).toJson.toText,
        Status.stopped.toJson.toText,
        (Status.active info position length).toJson.toText].Nodup := by
  refine ⟨Status.faithful, FileView.faithful, playlist_faithful, Listing.faithful,
    TagView.tags_complete, fun info position length file file' tags => ?_⟩
  simp only [List.nodup_cons, List.mem_cons, List.not_mem_nil, or_false, not_or]
  exact ⟨⟨untagged_ne_tagged file file' tags, file_ne_stopped _, file_ne_active _ _ _ _⟩,
    ⟨file_ne_stopped _, file_ne_active _ _ _ _⟩, stopped_ne_active _ _ _, not_false,
    List.nodup_nil⟩

end Jukebox.Library

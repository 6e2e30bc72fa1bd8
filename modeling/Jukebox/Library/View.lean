import Jukebox.Json.Value
import Jukebox.Library.Media
import Jukebox.Text.Base64
/-!
# Views for clients

What clients are told about files, directories and playback, and how it is laid out as JSON.
Members stand in a fixed order and are left out when there is nothing to tell; tags and status are
spread over the object of their file. Cover art is written in Base64.
-/
namespace Jukebox.Library

open Json (Value)

/-- Tags as they are told. The MIME type of the cover art is told also when the art is not. -/
structure TagView where
  title : Option String
  artist : Option String
  album : Option String
  comment : Option String
  genre : Option String
  track : UInt32
  year : UInt32
  picture : Option String
  mime : Option String
  deriving DecidableEq, Repr

def Picture.encoded (p : Picture) : String :=
  String.ofList (Text.Base64.encode p.data)

namespace TagView

/-- Tags without their cover art. -/
def ofTags (t : Tags) : TagView :=
  { title := t.title
    artist := t.artist
    album := t.album
    comment := t.comment
    genre := t.genre
    track := t.track
    year := t.year
    picture := none
    mime := t.picture.bind (·.mime) }

def withPicture (v : TagView) (p : Option Picture) : TagView :=
  { v with picture := p.map (·.encoded) }

/-- Tags with their cover art. -/
def complete (t : Tags) : TagView :=
  (ofTags t).withPicture t.picture

/-- A member that is left out when there is no text. -/
def textMember (name : String) : Option String → List (String × Value)
  | some s => [(name, .string s)]
  | none => []

def members (v : TagView) : List (String × Value) :=
  textMember "title" v.title ++ textMember "artist" v.artist ++ textMember "album" v.album ++
    textMember "comment" v.comment ++ textMember "genre" v.genre ++
    [("track", .nat v.track.toNat), ("year", .nat v.year.toNat)] ++
    textMember "picture" v.picture ++ textMember "mime" v.mime

end TagView

structure FileView where
  file : String
  tags : Option TagView
  deriving DecidableEq, Repr

namespace FileView

def members (v : FileView) : List (String × Value) :=
  ("file", .string v.file) :: (v.tags.map (·.members)).getD []

def toJson (v : FileView) : Value :=
  .object v.members

end FileView

/-- The state of playback as it is told. Without playback there is a place for the name of a file,
which the player leaves empty. -/
inductive Status where
  | idle (file : Option String)
  | active (info : FileView) (position length : UInt64)
  deriving DecidableEq, Repr

def Status.stopped : Status :=
  .idle none

/-- The status as a JSON object; a file that is not named is null. -/
def Status.toJson : Status → Value
  | .idle file => .object [("file", .string? file)]
  | .active info position length =>
    .object (info.members ++ [("pos", .nat position.toNat), ("length", .nat length.toNat)])

structure Listing where
  directories : List String
  files : List FileView
  deriving DecidableEq, Repr

def Listing.toJson (l : Listing) : Value :=
  .object
    [("directory", .array (l.directories.map .string)), ("file", .array (l.files.map (·.toJson)))]

end Jukebox.Library

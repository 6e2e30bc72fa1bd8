import Jukebox.Text.Numeral
/-!
# Genres by number

Players agreed on numbers for genres long before tags could spell them. A tag may still give a
genre by its number, alone or in parentheses.
-/
namespace Jukebox.Library.Genre

def names : List String :=
  ["Blues", "Classic Rock", "Country", "Dance", "Disco", "Funk", "Grunge", "Hip-Hop", "Jazz",
    "Metal", "New Age", "Oldies", "Other", "Pop", "Rhythm and Blues", "Rap", "Reggae", "Rock",
    "Techno", "Industrial", "Alternative", "Ska", "Death Metal", "Pranks", "Soundtrack",
    "Euro-Techno", "Ambient", "Trip-Hop", "Vocal", "Jazz & Funk", "Fusion", "Trance", "Classical",
    "Instrumental", "Acid", "House", "Game", "Sound Clip", "Gospel", "Noise", "Alternative Rock",
    "Bass", "Soul", "Punk", "Space", "Meditative", "Instrumental Pop", "Instrumental Rock",
    "Ethnic", "Gothic", "Darkwave", "Techno-Industrial", "Electronic", "Pop-Folk", "Eurodance",
    "Dream", "Southern Rock", "Comedy", "Cult", "Gangsta", "Top 40", "Christian Rap", "Pop/Funk",
    "Jungle", "Native American", "Cabaret", "New Wave", "Psychedelic", "Rave", "Showtunes",
    "Trailer", "Lo-Fi", "Tribal", "Acid Punk", "Acid Jazz", "Polka", "Retro", "Musical",
    "Rock 'n' Roll", "Hard Rock", "Folk", "Folk-Rock", "National Folk", "Swing", "Fast Fusion",
    "Bebop", "Latin", "Revival", "Celtic", "Bluegrass", "Avantgarde", "Gothic Rock",
    "Progressive Rock", "Psychedelic Rock", "Symphonic Rock", "Slow Rock", "Big Band", "Chorus",
    "Easy Listening", "Acoustic", "Humour", "Speech", "Chanson", "Opera", "Chamber Music",
    "Sonata", "Symphony", "Booty Bass", "Primus", "Porn Groove", "Satire", "Slow Jam", "Club",
    "Tango", "Samba", "Folklore", "Ballad", "Power Ballad", "Rhythmic Soul", "Freestyle", "Duet",
    "Punk Rock", "Drum Solo", "A Cappella", "Euro-House", "Dancehall", "Goa", "Drum & Bass",
    "Club-House", "Hardcore Techno", "Terror", "Indie", "BritPop", "Afro-punk", "Polsk Punk",
    "Beat", "Christian Gangsta Rap", "Heavy Metal", "Black Metal", "Crossover",
    "Contemporary Christian", "Christian Rock", "Merengue", "Salsa", "Thrash Metal", "Anime",
    "Jpop", "Synthpop", "Abstract", "Art Rock", "Baroque", "Bhangra", "Big Beat", "Breakbeat",
    "Chillout", "Downtempo", "Dub", "EBM", "Eclectic", "Electro", "Electroclash", "Emo",
    "Experimental", "Garage", "Global", "IDM", "Illbient", "Industro-Goth", "Jam Band",
    "Krautrock", "Leftfield", "Lounge", "Math Rock", "New Romantic", "Nu-Breakz", "Post-Punk",
    "Post-Rock", "Psytrance", "Shoegaze", "Space Rock", "Trop Rock", "World Music",
    "Neoclassical", "Audiobook", "Audio Theatre", "Neue Deutsche Welle", "Podcast", "Indie-Rock",
    "G-Funk", "Dubstep", "Garage Rock", "Psybient"]

/-- Codes that stand for what is done to another song. -/
def codes : List (String × String) :=
  [("RX", "Remix"), ("CR", "Cover")]

/-- Bytes of the longest text that may be a number or a code. -/
def mostBytes : Nat := 3

/-- The genre that a text names: by a number, by a code, or by itself. -/
def ofReference (s : String) : String :=
  if mostBytes < s.utf8ByteSize then s
  else
    match (Text.Numeral.parse? Text.Numeral.wordBound s).bind (names[·]?) with
    | some name => name
    | none => (codes.lookup s).getD s

/-- The first genre of a text. Genres are kept apart by NULs, or are references in parentheses with
further words behind them; a doubled parenthesis is the start of words that have one. -/
def first? (s : String) : Option String :=
  let cs := s.toList
  let upTo := fun (c : Char) (cs : List Char) => String.ofList (cs.takeWhile (· ≠ c))
  if cs.isEmpty then none
  else if '\x00' ∈ cs then some (ofReference (upTo '\x00' cs))
  else
    match cs with
    | '(' :: '(' :: _ => if ')' ∈ cs then some (String.ofList cs.tail) else some (ofReference s)
    | '(' :: rest => some (ofReference (if ')' ∈ rest then upTo ')' rest else s))
    | _ => some (ofReference s)

end Jukebox.Library.Genre

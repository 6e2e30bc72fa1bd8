import Mathlib.Tactic
import Jukebox.Proofs.Config.Outcomes
import Jukebox.Proofs.Config.Sections
/-!
# The format of the configuration file

The text of a document is read back as that document, whatever sections were set in it, as long as
it nests no deeper than the reader goes. A save that succeeds leaves the text at the path of the
store or, where links lead it astray, no file at all.
-/
namespace Jukebox.Json

/-- An integer of 64 bits, signed or unsigned. -/
def Number.Exact : Number → Prop
  | .integer n => (Number.integer n).InRange
  | .real _ => False

mutual
/-- Values made of words, integers of 64 bits, texts, arrays and objects in order. -/
def Value.Exact : Value → Prop
  | .number n => n.Exact
  | .array items => Value.AllExact items
  | .object members => Members.Sorted members ∧ Value.MembersExact members
  | _ => True

def Value.AllExact : List Value → Prop
  | [] => True
  | v :: rest => v.Exact ∧ Value.AllExact rest

def Value.MembersExact : List (String × Value) → Prop
  | [] => True
  | (_, v) :: rest => v.Exact ∧ Value.MembersExact rest
end

theorem Number.Exact.rereads {n : Number} (exact : n.Exact) : n.Rereads := by
  cases n with
  | integer n => exact Number.rereads_integer exact
  | real x => exact exact.elim

mutual
theorem Value.Exact.rereads : ∀ {v : Value}, v.Exact → v.Rereads
  | .null, _ => trivial
  | .bool _, _ => trivial
  | .number _, exact => Number.Exact.rereads exact
  | .string _, _ => trivial
  | .array _, exact => allReread exact
  | .object _, exact => ⟨exact.1, membersReread exact.2⟩

theorem allReread : ∀ {items : List Value}, Value.AllExact items → Value.AllReread items
  | [], _ => trivial
  | _ :: _, exact => ⟨exact.1.rereads, allReread exact.2⟩

theorem membersReread : ∀ {members : Members}, Value.MembersExact members →
    Value.MembersReread members
  | [], _ => trivial
  | (_, _) :: _, exact => ⟨exact.1.rereads, membersReread exact.2⟩
end

/-- The members of an object nest less deep than the object. -/
theorem Value.depth_lt_of_mem {members : Members} {m : String × Value} (there : m ∈ members) :
    m.2.depth < (Value.object members).depth := by
  rw [Value.depth, Nat.lt_succ_iff]
  induction members with
  | nil => cases there
  | cons first rest ih =>
    rw [deepestMember]
    rcases List.mem_cons.mp there with rfl | later
    · exact le_max_left _ _
    · exact (ih later).trans (le_max_right _ _)

end Jukebox.Json

namespace Jukebox.Config.Store

open Storage FileSystem

variable {s : Store} {fs fs' : FileSystem}

/-- The stores whose document was opened and then edited, section by section. -/
inductive Edited : Store → Prop
  | opened (fs : FileSystem) (path : Path) (exact : ∀ m ∈ (openAt fs path).document, m.2.Exact) :
      Edited (openAt fs path)
  | set {s : Store} (before : Edited s) (id : String) (value : Option Json.Value)
      (exact : ∀ v ∈ value, v.Exact) : Edited (s.setSection id value)

namespace Edited

theorem sorted (edited : Edited s) : s.document.Sorted := by
  induction edited with
  | opened fs path => exact openAt_sorted fs path
  | set before id value _ ih => exact setSection_sorted ih id value

theorem exact (edited : Edited s) : ∀ m ∈ s.document, m.2.Exact := by
  induction edited with
  | opened fs path exact => exact exact
  | set before id value exact ih =>
    intro m there
    rcases Json.Members.mem_of_mem_put there with ⟨v, set, rfl⟩ | old
    · exact exact v set
    · exact ih m old

/-- The text of the document is read back as the document. -/
theorem documentOf_text (edited : Edited s)
    (fits : (Json.Value.object s.document).depth ≤ Json.maxDepth) :
    documentOf s.text = s.document :=
  Store.documentOf_text edited.sorted fun m there =>
    ⟨(edited.exact m there).rereads, (Json.Value.depth_lt_of_mem there).trans_le fits⟩

end Edited

theorem section?_openAt_unreadable {path : Path} (lost : ∀ found, fs.content path ≠ .ok found)
    (id : String) : (openAt fs path).section? id = none := by
  rw [section?, openAt, documentAt]
  cases content : fs.content path with
  | ok found => exact absurd content (lost found)
  | error e => rfl

/-- A document that was opened and edited comes back from its text, and a store that is opened on the
file of a save that succeeded has the same sections, every id's, unless no file can be read there and
the document has sections to lose. When no links lead the save astray, the file can be read. -/
theorem Edited.round_trip (edited : Edited s)
    (fits : (Json.Value.object s.document).depth ≤ Json.maxDepth)
    (saved : s.save.run fs = (.ok (), fs')) :
    documentOf s.text = s.document ∧
    ((∀ id, (openAt fs' s.path).section? id = s.section? id) ↔
      s.document = [] ∨ ∃ found, fs'.content s.path = .ok found) ∧
    (Straight s.path fs → ∀ id, (openAt fs' s.path).section? id = s.section? id) := by
  have reread := edited.documentOf_text fits
  have readable {found : List UInt8} (content : fs'.content s.path = .ok found) (id : String) :
      (openAt fs' s.path).section? id = s.section? id := by
    rw [section?, openAt, documentAt, content, text_of_saved saved content]
    exact congrArg (Json.Members.find? id) reread
  refine ⟨reread, ⟨fun same => ?_, ?_⟩, fun straight => readable (content_of_saved saved straight)⟩
  · by_contra lost
    obtain ⟨filled, unreadable⟩ := not_or.mp lost
    obtain ⟨m, rest, document⟩ := List.exists_cons_of_ne_nil filled
    have there : s.section? m.1 = some m.2 :=
      Json.Members.find?_of_mem edited.sorted (document ▸ List.mem_cons_self)
    rw [← same, section?_openAt_unreadable (not_exists.mp unreadable)] at there
    cases there
  · rintro (empty | ⟨found, content⟩) id
    · by_cases lost : ∃ found, fs'.content s.path = .ok found
      · exact readable lost.choose_spec id
      · rw [section?_openAt_unreadable (not_exists.mp lost), section?, empty]
        rfl
    · exact readable content id

section Noted

/-- A section of an integer, a text and an empty object. -/
def notes : Json.Value :=
  .array [.number (.integer Json.leastInteger), .string "\"\\\n\u0001🎵", .object []]

/-- A store whose document was empty, with that section. -/
def noted : Store :=
  (openAt .empty plainPath).setSection "♪" (some notes)

theorem content_empty : FileSystem.empty.content plainPath = .error .noEntry := by
  have found : FileSystem.empty.locate .target plainPath = .ok ([plainName], none) :=
    plainPath_plain.locate_eq rfl (Or.inr (by rintro target ⟨⟩))
  rw [content, stat, found]

theorem noted_edited : Edited noted := by
  refine .set (.opened .empty plainPath ?_) "♪" (some notes) ?_
  · rw [openAt, documentAt, content_empty]
    exact List.forall_mem_nil _
  · rintro v ⟨⟩
    exact ⟨⟨by decide, by decide⟩, trivial, ⟨.nil, trivial⟩, trivial⟩

theorem noted_document : noted.document = [("♪", notes)] := by
  rw [noted, setSection, openAt, documentAt, content_empty]
  rfl

theorem noted_fits : (Json.Value.object noted.document).depth ≤ Json.maxDepth := by
  rw [noted_document]
  decide

/-- Without links, the section comes back. -/
theorem noted_comes_back :
    Edited noted ∧ (Json.Value.object noted.document).depth ≤ Json.maxDepth ∧
    Straight noted.path .empty ∧
    ∃ fs', noted.save.run .empty = (.ok (), fs') ∧
      (openAt fs' noted.path).section? "♪" = some notes := by
  obtain ⟨fs', saved⟩ := save_empty (s := noted) rfl
  obtain ⟨-, -, same⟩ := noted_edited.round_trip noted_fits saved
  refine ⟨noted_edited, noted_fits, straight_empty _, fs', saved, ?_⟩
  rw [same (straight_empty _), section?, noted_document]
  rfl

/-- When the sibling's name is that of a link to the configuration file, the section is lost although
the save succeeds. -/
theorem noted_linked_lost :
    Edited noted ∧ (Json.Value.object noted.document).depth ≤ Json.maxDepth ∧
    noted.save.run linkedFiles = (.ok (), loopedFiles) ∧
    noted.section? "♪" = some notes ∧ (openAt loopedFiles noted.path).section? "♪" = none := by
  refine ⟨noted_edited, noted_fits, save_linked rfl, ?_, ?_⟩
  · rw [section?, noted_document]
    rfl
  · refine section?_openAt_unreadable (fun found content => ?_) "♪"
    have looped : loopedFiles.content noted.path = .error .linkLoop := content_looped
    rw [looped] at content
    cases content

end Noted

end Jukebox.Config.Store

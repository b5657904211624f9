import RecordLayer.Proofs.Connection
import RecordLayer.Text.Utf8

/-!
# URLs — The file that is read off

The URL of a database in a file has the file's path in it as it is.  A driver takes what stands
before the first question mark for the path, with its escapes undone, and the rest for options
(`FileAddress.ofUrl?`).  So it opens the configured file with the one option that is set exactly if
the path has neither question marks nor escapes in it; with others it opens another file, or none
(`DatabaseSettings.connectionUrl_names_file_iff`).
-/

namespace RecordLayer
open Text Url

/-- The file that a driver opens, and the options that it opens it with. -/
structure FileAddress where
  file : String
  options : List (String × String)
deriving DecidableEq

namespace FileAddress

/-- The options that a form says, empty entries left out. -/
def optionsOf (form : List Char) : List (String × String) :=
  ((cutAt '&' form).filter (!·.isEmpty)).map fun entry =>
    (lossyUtf8 (Login.entry entry).1, lossyUtf8 (Login.entry entry).2)

/-- The file and the options that a URL says. -/
def ofUrl? (url : String) : Option FileAddress := do
  let rest ← afterMark? "sqlite://".toList url.toList
  let (path, form) := (cutFirst? ['?'] rest).getD (rest, [])
  let file ← text? (unescaped path)
  return ⟨file, optionsOf form⟩

variable {path form : List Char}

/-- The path ends at the first question mark. -/
theorem ofUrl?_eq {url : String} (hpath : '?' ∉ path)
    (h : url.toList = "sqlite://".toList ++ (path ++ '?' :: form)) :
    ofUrl? url = (text? (unescaped path)).map (⟨·, optionsOf form⟩) := by
  have hcut := cutFirst?_append (endsAt_singleton hpath) form
  rw [List.append_assoc, List.singleton_append] at hcut
  rw [ofUrl?, afterMark?_eq_some_iff.2 h, Option.bind_eq_bind, Option.bind_some]
  simp only [hcut, Option.getD_some]
  cases text? (unescaped path) <;> rfl

theorem length_utf8_append (s t : List Char) :
    (utf8 (s ++ t)).length = (utf8 s).length + (utf8 t).length := by
  rw [utf8, List.flatMap_append, List.length_append]
  rfl

/-- What stands before a question mark is too short for the whole path, escaped or not. -/
theorem unescaped_ne_utf8_append (front back : List Char) :
    unescaped front ≠ utf8 (front ++ '?' :: back) := by
  intro heq
  have hfront := length_unescaped_le front
  have hmark := length_utf8EncodeChar_pos '?'
  rw [heq, length_utf8_append, length_utf8_cons] at hfront
  omega

end FileAddress

namespace DatabaseSettings
variable {s : DatabaseSettings}

theorem toList_fileUrl (s : DatabaseSettings) : s.fileUrl.toList =
    "sqlite://".toList ++ (s.path.toList ++ '?' :: "mode=rwc".toList) := by
  have hmode : "?mode=rwc".toList = '?' :: "mode=rwc".toList := rfl
  rw [fileUrl, String.toList_append, String.toList_append, hmode, List.append_assoc]

theorem connectionUrl_file (h : s.dialect? = .ok .sqlite) : s.connectionUrl = .ok s.fileUrl := by
  rw [connectionUrl, h]
  rfl

theorem dialect?_ofFile (path : String) : (ofFile path).dialect? = .ok .sqlite := by
  change Dialect.ofName? "sqlite" = .ok .sqlite
  exact eq_ok_of_toOption (by decide +kernel)

theorem optionsOf_mode : FileAddress.optionsOf "mode=rwc".toList = [("mode", "rwc")] := by
  decide +kernel

/-- **The URL names the configured file exactly if its path can be read back**: it has neither
question marks, which end it, nor escapes, which stand for other bytes. -/
theorem connectionUrl_names_file_iff (h : s.dialect? = .ok .sqlite) :
    ∃ url, s.connectionUrl = .ok url ∧
      (FileAddress.ofUrl? url = some ⟨s.path, [("mode", "rwc")]⟩ ↔
        '?' ∉ s.path.toList ∧ hasEscape s.path.toList = false) := by
  refine ⟨s.fileUrl, connectionUrl_file h, ?_⟩
  have hurl := s.toList_fileUrl
  by_cases hmark : '?' ∈ s.path.toList
  · -- what is read ends at the first of the path's own question marks
    refine iff_of_false (fun hread => ?_) fun hnot => hnot.1 hmark
    obtain ⟨front, back, hpath, hfront⟩ := List.eq_append_cons_of_mem hmark
    rw [hpath, List.append_assoc, List.cons_append] at hurl
    rw [FileAddress.ofUrl?_eq hfront hurl] at hread
    obtain ⟨file, hfile, haddress⟩ := Option.map_eq_some_iff.1 hread
    obtain rfl : file = s.path := congrArg FileAddress.file haddress
    rw [text?_eq_some_iff, hpath] at hfile
    exact FileAddress.unescaped_ne_utf8_append front back hfile
  · rw [FileAddress.ofUrl?_eq hmark hurl, optionsOf_mode, and_iff_right hmark,
      ← unescaped_eq_utf8_iff, Option.map_eq_some_iff]
    simp only [FileAddress.mk.injEq, and_true, exists_eq_right, text?_eq_some_iff]

/-- A blank, a number sign and a percent sign that begins no escape stay as they are. -/
theorem connectionUrl_names_oddFile :
    (ofFile "/var/agent data/100%.sqlite#1").dialect? = .ok .sqlite ∧
      ∃ url, (ofFile "/var/agent data/100%.sqlite#1").connectionUrl = .ok url ∧
        FileAddress.ofUrl? url = some ⟨"/var/agent data/100%.sqlite#1", [("mode", "rwc")]⟩ := by
  have hdialect := dialect?_ofFile "/var/agent data/100%.sqlite#1"
  obtain ⟨url, hurl, hnames⟩ := connectionUrl_names_file_iff hdialect
  exact ⟨hdialect, url, hurl, hnames.2 ⟨by decide +kernel, by decide +kernel⟩⟩

/-- A question mark in the path ends it: another file is named, with an option that is none. -/
theorem connectionUrl_names_otherFile :
    (ofFile "jobs?old.sqlite").connectionUrl = .ok "sqlite://jobs?old.sqlite?mode=rwc" ∧
      FileAddress.ofUrl? "sqlite://jobs?old.sqlite?mode=rwc" =
        some ⟨"jobs", [("old.sqlite?mode", "rwc")]⟩ := by
  refine ⟨connectionUrl_file (dialect?_ofFile _), ?_⟩
  decide +kernel

end DatabaseSettings

end RecordLayer

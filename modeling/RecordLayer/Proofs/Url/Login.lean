import RecordLayer.Proofs.Text.Mark
import RecordLayer.Proofs.Url.Following
import RecordLayer.Settings.Connection

/-!
# URLs — The login that is read off

A driver is given no more than the URL under which a database is reached, and reads user, password,
database and TLS mode off it (`Login.ofUrl?`).  In the parts of a URL that is set up from settings
nothing occurs that ends them (`Url.IsLegible`), so that each is found where it was put
(`Login.ofUrl?_eq_some_iff`).
-/

namespace RecordLayer
open Text Url

/-- Whom a driver logs in as, and to what. -/
structure Login where
  user : String
  password : String
  database : String
  sslMode : Option String
deriving DecidableEq

namespace Login

/-- User and password of an authority: they stand before its last at sign. -/
def account (authority : List Char) : List Char × List Char :=
  let account := ((cutLast? ['@'] authority).map (·.1)).getD []
  (cutFirst? [':'] account).getD (account, [])

/-- Name and value of an entry of a form. -/
def entry (s : List Char) : List UInt8 × List UInt8 :=
  let (name, value) := (cutFirst? ['='] s).getD (s, [])
  (formUnescaped name, formUnescaped value)

/-- The value of a name in a form; the last if there are several. -/
def formValue? (name : String) (form : List Char) : Option (List UInt8) :=
  ((cutAt '&' form).map entry).reverse.lookup (utf8 name.toList)

/-- The login that a URL says.  Behind the scheme come the authority, the path, the query and the
fragment, of which each begins with a mark of its own. -/
def ofUrl? (d : Dialect) (url : String) : Option Login := do
  let (_, rest) ← cutFirst? "://".toList url.toList
  let (authority, rest) := cutBefore (fun c => c == '/' || c == '?' || c == '#') rest
  let (path, rest) := cutBefore (fun c => c == '?' || c == '#') rest
  let query := (cutBefore (· == '#') rest).1
  let (user, password) := account authority
  return {
    user := ← text? (unescaped user)
    password := ← text? (unescaped password)
    database := ← text? (unescaped (path.drop 1))
    sslMode := ← (formValue? d.sslParam (query.drop 1)).mapM text? }

end Login

/-! ### Marks -/

namespace Url

/-- The marks that end a part of a URL. -/
def marks : List Char :=
  ['@', ':', '/', '?', '#', '&', '=']

/-- A property of each of finitely many characters is decided one by one. -/
theorem forall_mem_of_all {s : List Char} {p : Char → Prop} [DecidablePred p]
    (h : s.all (fun c => decide (p c)) = true) : ∀ c ∈ s, p c :=
  fun c hc => of_decide_eq_true (List.all_eq_true.1 h c hc)

theorem not_mem_escaped_of_mark {d : Char} (hd : d ∈ marks) (c : Char) : d ∉ escaped c := by
  have hmarks : ∀ d ∈ marks, d ≠ '%' ∧ ∀ n < 16, d ≠ hexDigit n :=
    forall_mem_of_all (by decide)
  exact not_mem_escaped (hmarks d hd).1 (hmarks d hd).2 c

/-- A mark that does not stand for itself does not occur. -/
theorem not_mem_escapeWhere {p : Char → Bool} {d : Char} (hd : d ∈ marks) {s : List Char}
    (h : d ∈ s → p d = true) : d ∉ escapeWhere p s := by
  intro hmem
  obtain ⟨c, hc, hdc⟩ := List.mem_flatMap.1 hmem
  split at hdc
  · exact not_mem_escaped_of_mark hd c hdc
  · rename_i hp
    rw [← List.mem_singleton.1 hdc] at hc hp
    exact hp (h hc)

theorem not_mem_formValue {d : Char} (hd : d ∈ marks) (s : List Char) : d ∉ formValue s := by
  intro hmem
  obtain ⟨c, -, hdc⟩ := List.mem_flatMap.1 hmem
  rw [formEscaped] at hdc
  split at hdc
  · rename_i hplain
    have hmarks : ∀ d ∈ marks,
        (d.isAlphanum || d == '*' || d == '-' || d == '.' || d == '_') = false :=
      forall_mem_of_all (by decide)
    rw [← List.mem_singleton.1 hdc, hmarks d hd] at hplain
    cases hplain
  · split at hdc
    · have hplus : '+' ∉ marks := by decide
      exact hplus (List.mem_singleton.1 hdc ▸ hd)
    · exact not_mem_escaped_of_mark hd c hdc

theorem exists_digitChar_of_mem_toDigitsCore {c : Char} {base fuel n : Nat} {digits : List Char}
    (h : c ∈ Nat.toDigitsCore base fuel n digits) : (∃ k, c = Nat.digitChar k) ∨ c ∈ digits := by
  induction fuel generalizing n digits with
  | zero => exact .inr h
  | succ fuel ih =>
    rw [Nat.toDigitsCore] at h
    have hfirst : ∀ {k}, c ∈ Nat.digitChar k :: digits →
        (∃ k, c = Nat.digitChar k) ∨ c ∈ digits := by
      intro k h
      rcases List.mem_cons.1 h with h | h
      · exact .inl ⟨k, h⟩
      · exact .inr h
    split at h
    · exact hfirst h
    · exact (ih h).elim .inl hfirst

theorem digitChar_not_mem_marks (k : Nat) : Nat.digitChar k ∉ marks := by
  by_cases hk : k < 16
  · revert k
    decide
  · have hstar : Nat.digitChar k = '*' := by
      rw [Nat.digitChar]
      iterate 16 rw [if_neg (by omega)]
    rw [hstar]
    decide

theorem not_mem_toDigits {d : Char} (hd : d ∈ marks) (base n : Nat) : d ∉ Nat.toDigits base n := by
  intro h
  rw [Nat.toDigits] at h
  rcases exists_digitChar_of_mem_toDigitsCore h with ⟨k, rfl⟩ | h
  · exact digitChar_not_mem_marks k hd
  · cases h

/-- An address has no mark in it but colons. -/
theorem not_mem_render_address {d : Char} (hd : d ∈ marks) (hcolon : d ≠ ':') (a : Address) :
    d ∉ a.render := by
  have hgroups : ∀ groups, d ∉ Address.withColons groups := by
    intro groups h
    rcases mem_joined h with h | ⟨piece, hpiece, h⟩
    · exact hcolon (List.mem_singleton.1 h)
    · obtain ⟨group, -, rfl⟩ := List.mem_map.1 hpiece
      exact not_mem_toDigits hd 16 group h
  rw [Address.render]
  split
  split
  · exact hgroups _
  · intro h
    rcases List.mem_append.1 h with h | h
    · exact hgroups _ h
    · exact hgroups _ (List.mem_of_ne_of_mem hcolon (List.mem_of_ne_of_mem hcolon h))

/-- The path of a text begins with a slash, and nothing that ends a path occurs behind it. -/
theorem exists_render_ofText (s : List Char) : ∃ text, Path.render (Path.ofText s) = '/' :: text ∧
    ∀ c ∈ ['?', '#'], c ∉ text := by
  have hne := Path.follow_ne_nil (cutAt_ne_nil '/' (escapeWhere isForeignToPath s)) []
  have hnot : ∀ c ∈ ['?', '#'], c ∉ Path.render (Path.ofText s) := by
    have hmarks : ∀ c ∈ ['?', '#'], c ∈ marks ∧ isForeignToPath c = true ∧ c ≠ '/' :=
      forall_mem_of_all (by decide)
    intro c hc hmem
    obtain ⟨hmark, hforeign, hslash⟩ := hmarks c hc
    obtain ⟨segment, hsegment, hmem⟩ := List.mem_flatMap.1 hmem
    have hmem := List.mem_of_ne_of_mem hslash hmem
    rcases Path.mem_follow hsegment with rfl | h | h
    · cases hmem
    · cases h
    · -- the segments are those of the escaped text
      have hrender : c ∈ Path.render (cutAt '/' (escapeWhere isForeignToPath s)) :=
        List.mem_flatMap.2 ⟨segment, h, List.mem_cons_of_mem _ hmem⟩
      rw [Path.render_cutAt] at hrender
      exact not_mem_escapeWhere hmark (fun _ => hforeign) (List.mem_of_ne_of_mem hslash hrender)
  cases hpath : Path.ofText s with
  | nil => exact absurd hpath hne
  | cons segment rest =>
    rw [hpath] at hnot
    exact ⟨_, rfl, fun c hc hmem => hnot c hc (List.mem_cons_of_mem _ hmem)⟩

/-- Nothing occurs in the parts of the URL that ends them. -/
structure IsLegible (url : Url) : Prop where
  scheme : ':' ∉ url.scheme.toList
  user : ∀ c ∈ ['@', ':', '/', '?', '#'], c ∉ url.user
  password : ∀ c ∈ ['@', '/', '?', '#'], c ∉ url.password
  host : ∀ c ∈ ['@', '/', '?', '#'], c ∉ url.host.elim [] Host.render
  query : ∀ query ∈ url.query, '#' ∉ query

/-- What ends a password ends a user as well. -/
theorem endsUser_of_endsPassword {c : Char} (h : c ∈ ['@', '/', '?', '#']) :
    c ∈ ['@', ':', '/', '?', '#'] := by
  revert h
  exact forall_mem_of_all (s := ['@', '/', '?', '#']) (by decide) c

theorem read_ok {scheme text : String} {url : Url} (h : read scheme text = .ok url) :
    url.scheme = scheme ∧ (∃ account, (url.user, url.password) = readUser account) ∧
      (∃ host, readHost host = .ok url.host) ∧
      ∃ query : Option (List Char), url.query = query.map (escapeWhere isForeignToQuery) := by
  rw [read] at h
  simp only [bind, Except.bind, pure, Except.pure, throw, throwThe, MonadExceptOf.throw] at h
  split at h
  · cases h
  · split at h
    · cases h
    · rename_i host hhost
      split at h
      · cases h
      · split at h
        · cases h
        · cases h
          exact ⟨rfl, ⟨_, rfl⟩, ⟨_, hhost⟩, ⟨_, rfl⟩⟩

theorem readUser_eq (account : List Char) : ∃ user password, readUser account =
    (escapeWhere isForeignToUser user, escapeWhere isForeignToUser password) := by
  rw [readUser]
  split
  · exact ⟨_, _, rfl⟩
  · exact ⟨account, [], rfl⟩

theorem not_mem_readHost {text : List Char} {host : Option Host} (h : readHost text = .ok host)
    {d : Char} (hd : d ∈ ['@', '/', '?', '#']) : d ∉ host.elim [] Host.render := by
  have hmarks : ∀ d ∈ ['@', '/', '?', '#'],
      d ∈ marks ∧ isForeignToHost d = true ∧ d ≠ ':' ∧ d ≠ '[' ∧ d ≠ ']' :=
    forall_mem_of_all (by decide)
  obtain ⟨hmark, hforeign, hcolon, hopen, hclose⟩ := hmarks d hd
  rw [readHost] at h
  split at h
  · split at h
    · rename_i a _
      cases h
      intro hmem
      rcases List.mem_append.1 (List.mem_of_ne_of_mem hopen hmem) with hmem | hmem
      · exact not_mem_render_address hmark hcolon a hmem
      · exact hclose (List.mem_singleton.1 hmem)
    · cases h
  · split at h
    · cases h
    · rename_i hnone
      split at h
      · cases h
        exact List.not_mem_nil
      · cases h
        refine not_mem_escapeWhere hmark fun hmem => ?_
        exact absurd (List.any_eq_true.2 ⟨d, hmem, hforeign⟩) hnone

theorem isLegible_of_read {scheme text : String} {url : Url} (hscheme : ':' ∉ scheme.toList)
    (h : read scheme text = .ok url) : url.IsLegible := by
  obtain ⟨rfl, ⟨account, haccount⟩, ⟨host, hhost⟩, query, hquery⟩ := read_ok h
  obtain ⟨user, password, huser⟩ := readUser_eq account
  obtain ⟨hu, hp⟩ := Prod.mk.inj (haccount.trans huser)
  have hmarks : ∀ c ∈ ['@', ':', '/', '?', '#'], c ∈ marks ∧ isForeignToUser c = true :=
    forall_mem_of_all (by decide)
  refine ⟨hscheme, fun c hc => ?_, fun c hc => ?_, fun c hc => not_mem_readHost hhost hc, ?_⟩
  · rw [hu]
    exact not_mem_escapeWhere (hmarks c hc).1 fun _ => (hmarks c hc).2
  · rw [hp]
    obtain ⟨hmark, hforeign⟩ := hmarks c (endsUser_of_endsPassword hc)
    exact not_mem_escapeWhere hmark fun _ => hforeign
  · rw [hquery]
    intro q hq
    obtain ⟨s, -, rfl⟩ := Option.map_eq_some_iff.1 hq
    exact not_mem_escapeWhere (by decide) fun _ => by decide

/-! ### Reading a URL that was written -/

theorem cutBefore_append {p : Char → Bool} {s t : List Char} (hs : ∀ c ∈ s, p c = false)
    (ht : ∀ c ∈ t.head?, p c = true) : cutBefore p (s ++ t) = (s, t) := by
  have hpass : ∀ c ∈ s, (!p c) = true := fun c hc => by rw [hs c hc]; rfl
  rw [cutBefore, List.takeWhile_append_of_pos hpass, List.dropWhile_append_of_pos hpass]
  cases t with
  | nil => rw [List.takeWhile_nil, List.dropWhile_nil, List.append_nil]
  | cons c t =>
    have hstop : (!p c) = false := by rw [ht c rfl]; rfl
    rw [List.takeWhile_cons, List.dropWhile_cons, hstop]
    simp

theorem eq_of_mem_head_renderPart {mark c : Char} {part : Option (List Char)}
    (h : c ∈ (renderPart mark part).head?) : c = mark := by
  cases part with
  | none => cases h
  | some part =>
    cases h
    rfl

/-- Where the host is: what stands between the at sign and the path. -/
def place (url : Url) : List Char :=
  url.host.elim [] Host.render ++ renderPart ':' (url.port.map (Nat.toDigits 10))

namespace IsLegible
variable {url : Url} (h : url.IsLegible)

include h

theorem not_mem_place {c : Char} (hc : c ∈ ['@', '/', '?', '#']) : c ∉ url.place := by
  have hmarks : ∀ c ∈ ['@', '/', '?', '#'], c ∈ marks ∧ c ≠ ':' := forall_mem_of_all (by decide)
  intro hmem
  rcases List.mem_append.1 hmem with hmem | hmem
  · exact h.host c hc hmem
  · cases hport : url.port with
    | none =>
      rw [hport] at hmem
      cases hmem
    | some port =>
      rw [hport] at hmem
      exact not_mem_toDigits (hmarks c hc).1 10 port
        (List.mem_of_ne_of_mem (hmarks c hc).2 hmem)

/-- User and password are found before the place. -/
theorem account_authority : Login.account (url.renderUser ++ url.place) =
    (url.user, url.password) := by
  have hplace : '@' ∉ url.place := h.not_mem_place (by decide)
  have huser : cutFirst? [':'] url.user = none :=
    cutFirst?_eq_none_iff.2 fun hoccurs =>
      h.user ':' (by decide) (hoccurs.subset (List.mem_singleton_self _))
  rw [Login.account, renderUser]
  split
  · -- without an account no at sign is written, and none is in the place
    rename_i hnone
    obtain ⟨hempty, hempty'⟩ := Bool.and_eq_true_iff.1 hnone
    have hcut : cutLast? ['@'] url.place = none :=
      cutLast?_eq_none_iff.2 fun hoccurs => hplace (hoccurs.subset (List.mem_singleton_self _))
    rw [List.nil_append, hcut, List.isEmpty_iff.1 hempty, List.isEmpty_iff.1 hempty']
    rfl
  · split
    · rename_i hempty
      rw [List.append_assoc, List.singleton_append, cutLast?_singleton hplace]
      simp only [Option.map_some, Option.getD_some, huser, Option.getD_none,
        List.isEmpty_iff.1 hempty]
    · have hcut : cutFirst? [':'] (url.user ++ ':' :: url.password) =
          some (url.user, url.password) := by
        have hends := cutFirst?_append (endsAt_singleton (h.user ':' (by decide))) url.password
        rwa [List.append_assoc, List.singleton_append] at hends
      rw [List.append_assoc, List.singleton_append, cutLast?_singleton hplace]
      simp only [Option.map_some, Option.getD_some, hcut]

/-- The authority ends where the path begins. -/
theorem cutBefore_authority (text : List Char) :
    cutBefore (fun c => c == '/' || c == '?' || c == '#')
      (url.renderUser ++ url.place ++ '/' :: text) =
        (url.renderUser ++ url.place, '/' :: text) := by
  refine cutBefore_append (fun c hc => ?_) (fun c hc => by cases hc; rfl)
  refine eq_false_of_ne_true fun hmark => ?_
  have hc' : c ∈ ['/', '?', '#'] := by simpa [or_assoc] using hmark
  have hmarks : ∀ c ∈ ['/', '?', '#'], c ∈ ['@', ':', '/', '?', '#'] ∧ c ∈ ['@', '/', '?', '#'] ∧
      c ≠ ':' ∧ c ≠ '@' := forall_mem_of_all (by decide)
  obtain ⟨hfive, hfour, hcolon, hsign⟩ := hmarks c hc'
  rcases List.mem_append.1 hc with hc | hc
  · have huser := h.user c hfive
    have hpassword := h.password c hfour
    rw [renderUser] at hc
    split at hc
    · cases hc
    · split at hc <;> simp [huser, hpassword, hcolon, hsign] at hc
  · exact h.not_mem_place hfour hc

/-- The query ends where the fragment begins. -/
theorem cutBefore_query : cutBefore (· == '#')
    (renderPart '?' url.query ++ renderPart '#' url.fragment) =
      (renderPart '?' url.query, renderPart '#' url.fragment) := by
  refine cutBefore_append (fun c hc => ?_) fun c hc => beq_iff_eq.2 (eq_of_mem_head_renderPart hc)
  cases hquery : url.query with
  | none =>
    rw [hquery] at hc
    cases hc
  | some query =>
    rw [hquery] at hc
    refine beq_eq_false_iff_ne.2 ?_
    rintro rfl
    exact h.query query hquery (List.mem_of_ne_of_mem (by decide) hc)

end IsLegible

/-- The path ends where the query or the fragment begins. -/
theorem cutBefore_path {text : List Char} (hmarks : ∀ c ∈ ['?', '#'], c ∉ text)
    (query fragment : Option (List Char)) :
    cutBefore (fun c => c == '?' || c == '#')
      ('/' :: text ++ (renderPart '?' query ++ renderPart '#' fragment)) =
        ('/' :: text, renderPart '?' query ++ renderPart '#' fragment) := by
  refine cutBefore_append (fun c hc => ?_) (fun c hc => ?_)
  · refine eq_false_of_ne_true fun hmark => ?_
    have hc' : c ∈ ['?', '#'] := by simpa using hmark
    rcases List.mem_cons.1 hc with rfl | hc
    · exact absurd hc' (by decide)
    · exact hmarks c hc' hc
  · -- without a query the fragment follows
    cases query with
    | some query =>
      cases hc
      rfl
    | none =>
      rw [eq_of_mem_head_renderPart hc]
      rfl

end Url

namespace Login

theorem mapM_text?_eq_some_iff {bytes : Option (List UInt8)} {value : Option String} :
    bytes.mapM text? = some value ↔ bytes = value.map (utf8 ·.toList) := by
  cases bytes with
  | none => cases value <;> simp
  | some b => cases value <;> simp [text?_eq_some_iff]

/-- Each part is found where it was put. -/
theorem ofUrl?_eq_some_iff {d : Dialect} {url : Url} (h : url.IsLegible) {text : List Char}
    (hpath : url.path.render = '/' :: text) (hmarks : ∀ c ∈ ['?', '#'], c ∉ text) {login : Login} :
    ofUrl? d (toString url) = some login ↔
      unescaped url.user = utf8 login.user.toList ∧
      unescaped url.password = utf8 login.password.toList ∧
      unescaped text = utf8 login.database.toList ∧
      formValue? d.sslParam (url.query.getD []) = login.sslMode.map (utf8 ·.toList) := by
  have htext : (toString url).toList = url.scheme.toList ++ "://".toList ++
      (url.renderUser ++ url.place ++
        '/' :: (text ++ (renderPart '?' url.query ++ renderPart '#' url.fragment))) := by
    change (String.ofList url.render).toList = _
    rw [String.toList_ofList, Url.render, hpath, Url.place]
    simp only [List.append_assoc, List.cons_append]
  have hscheme : EndsAt "://".toList url.scheme.toList := endsAt_of_not_mem h.scheme
  have hform : (renderPart '?' url.query).tail = url.query.getD [] := by
    cases url.query <;> rfl
  have hpart := cutBefore_path hmarks url.query url.fragment
  rw [List.cons_append] at hpart
  rw [ofUrl?, htext, cutFirst?_append hscheme]
  simp only [Option.bind_eq_bind, Option.bind_some, h.cutBefore_authority, hpart, h.cutBefore_query,
    hform, h.account_authority, List.drop_one, List.tail_cons]
  simp only [Option.bind_eq_some_iff, text?_eq_some_iff, mapM_text?_eq_some_iff]
  constructor
  · rintro ⟨user, huser, password, hpassword, database, hdatabase, mode, hmode, hlogin⟩
    cases hlogin
    exact ⟨huser, hpassword, hdatabase, hmode⟩
  · rintro ⟨huser, hpassword, hdatabase, hmode⟩
    exact ⟨_, huser, _, hpassword, _, hdatabase, _, hmode, rfl⟩

end Login

end RecordLayer

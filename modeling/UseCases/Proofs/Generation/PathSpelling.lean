/-
Spellings of one path.

A slash may be repeated and a `.` put behind one, and the path still names the same components.  A
package URI is derived from the text of the path.  What stands up to the first directory `lib` is
dropped, however it is spelled, and so are the `./` and the slashes that lead a path without such a
directory.  The rest is taken over as it is spelled, so that a spelling shows in the URI.  It costs
no more than that: the URIs of two spellings of one path are two spellings of one URI.
-/
import Mathlib.Logic.Relation
import UseCases.Proofs.Generation.PackageUri

namespace UseCases.Generation

open Text

variable {path other third front rest idle x y : List Char}

/-- A component that leads nowhere. -/
def IsIdle (component : List Char) : Prop :=
  component = [] ∨ component = ['.']

/-- One more component that leads nowhere stands behind a slash: the slash is repeated, or `./` is
put behind it. -/
inductive Respelled : List Char → List Char → Prop
  | behind (front rest : List Char) (idle : List Char) (h : IsIdle idle) :
      Respelled (front ++ '/' :: rest) (front ++ '/' :: (idle ++ '/' :: rest))

/-- Two spellings of one path. -/
def SamePath : List Char → List Char → Prop :=
  Relation.EqvGen Respelled

/-! ### What respelling keeps -/

theorem SamePath.refl (path : List Char) : SamePath path path :=
  Relation.EqvGen.refl path

theorem SamePath.symm (h : SamePath path other) : SamePath other path :=
  Relation.EqvGen.symm _ _ h

theorem SamePath.trans (first : SamePath path other) (second : SamePath other third) :
    SamePath path third :=
  Relation.EqvGen.trans _ _ _ first second

theorem SamePath.of_respelled (h : Respelled path other) : SamePath path other :=
  Relation.EqvGen.rel _ _ h

theorem SamePath.behind (front rest : List Char) (h : IsIdle idle) :
    SamePath (front ++ '/' :: rest) (front ++ '/' :: (idle ++ '/' :: rest)) :=
  .of_respelled (.behind front rest idle h)

/-- A function that takes each step to spellings of one path does so with any number of steps. -/
theorem SamePath.map {f : List Char → List Char}
    (hstep : ∀ path other, Respelled path other → SamePath (f path) (f other))
    (h : SamePath path other) : SamePath (f path) (f other) := by
  induction h with
  | rel path other hrespelled => exact hstep path other hrespelled
  | refl path => exact SamePath.refl _
  | symm path other _ ih => exact SamePath.symm ih
  | trans path middle other _ _ first second => exact SamePath.trans first second

/-- What each step keeps is kept. -/
theorem SamePath.iff {p : List Char → Prop}
    (hstep : ∀ path other, Respelled path other → (p path ↔ p other))
    (h : SamePath path other) : p path ↔ p other := by
  induction h with
  | rel path other hrespelled => exact hstep path other hrespelled
  | refl path => exact Iff.rfl
  | symm path other _ ih => exact ih.symm
  | trans path middle other _ _ first second => exact first.trans second

theorem SamePath.append (h : SamePath path other) (more : List Char) :
    SamePath (path ++ more) (other ++ more) := by
  refine h.map (f := (· ++ more)) ?_
  rintro _ _ ⟨front, rest, idle, hidle⟩
  have hmore := SamePath.behind front (rest ++ more) hidle
  simpa only [List.append_assoc, List.cons_append] using hmore

theorem segments_append_slash (front rest : List Char) :
    segments (front ++ '/' :: rest) = segments front ++ segments rest :=
  splitAt_append front rest rfl

theorem segments_of_idle (h : IsIdle idle) : segments idle = [idle] := by
  rcases h with rfl | rfl <;> rfl

theorem segments_behind (front rest : List Char) (h : IsIdle idle) :
    segments (front ++ '/' :: (idle ++ '/' :: rest))
      = segments front ++ idle :: segments rest := by
  rw [segments_append_slash, segments_append_slash, segments_of_idle h]
  rfl

theorem libName_not_idle : ¬IsIdle libName := by
  rintro (h | h) <;> exact absurd h (by decide)

theorem mem_libName_behind (front : List Char) (h : IsIdle idle) :
    libName ∈ segments (front ++ '/' :: idle) ↔ libName ∈ segments front := by
  rw [segments_append_slash, segments_of_idle h, List.mem_append, List.mem_singleton, or_iff_left]
  exact fun heq => libName_not_idle (heq ▸ h)

theorem mem_libName_respelled (h : Respelled path other) :
    libName ∈ segments path ↔ libName ∈ segments other := by
  obtain ⟨front, rest, idle, hidle⟩ := h
  rw [← List.cons_append, ← List.append_assoc, segments_append_slash, segments_append_slash,
    List.mem_append, List.mem_append, mem_libName_behind front hidle]

/-- A directory `lib` stands on one side of a slash. -/
theorem mem_libDirectories (front rest : List Char) :
    libName ∈ (segments (front ++ '/' :: rest)).dropLast ↔
      libName ∈ segments front ∨ libName ∈ (segments rest).dropLast := by
  rw [segments_append_slash, List.dropLast_append_of_ne_nil (segments_ne_nil rest),
    List.mem_append]

theorem extension_respelled (h : Respelled path other) :
    dartExtension <:+ path ↔ dartExtension <:+ other := by
  obtain ⟨front, rest, idle, hidle⟩ := h
  have hnone : '/' ∉ dartExtension := by decide
  rw [suffix_behind_slash hnone, suffix_behind_slash hnone, suffix_behind_slash hnone]

theorem forwardSlashes_append_slash (front rest : List Char) :
    forwardSlashes (front ++ '/' :: rest) = forwardSlashes front ++ '/' :: forwardSlashes rest := by
  rw [forwardSlashes, List.map_append, List.map_cons]
  rfl

theorem forwardSlashes_respelled (h : Respelled path other) :
    Respelled ('/' :: forwardSlashes path) ('/' :: forwardSlashes other) := by
  obtain ⟨front, rest, idle, hidle⟩ := h
  have hsame : forwardSlashes idle = idle := by
    rcases hidle with rfl | rfl <;> rfl
  rw [forwardSlashes_append_slash, forwardSlashes_append_slash, forwardSlashes_append_slash, hsame]
  exact .behind ('/' :: forwardSlashes front) _ idle hidle

/-! ### The part that is dropped -/

/-- Where the first directory `lib` stands. -/
theorem exists_first_lib (h : libName ∈ (segments path).dropLast) :
    ∃ front more, segments path = front ++ libName :: more ∧ libName ∉ front ∧ more ≠ [] := by
  obtain ⟨front, back, hfront, hfirst⟩ := List.eq_append_cons_of_mem h
  refine ⟨front, back ++ [(segments path).getLast (segments_ne_nil _)], ?_, hfirst, by simp⟩
  rw [← List.cons_append, ← List.append_assoc, ← hfront, List.dropLast_append_getLast]

/-- Directories in front of the first `lib` do not count. -/
theorem libraryPath_in_front (hfront : libName ∉ segments front)
    (hrest : libName ∈ (segments rest).dropLast) :
    libraryPath (front ++ '/' :: rest) = libraryPath rest := by
  obtain ⟨before, more, hsegments, hfirst, hmore⟩ := exists_first_lib hrest
  have hwhole : segments (front ++ '/' :: rest)
      = (segments front ++ before) ++ libName :: more := by
    rw [segments_append_slash, hsegments, List.append_assoc]
  have hnone : libName ∉ segments front ++ before :=
    fun hmem => (List.mem_append.mp hmem).elim hfront hfirst
  rw [libraryPath_of_lib hwhole hnone hmore, libraryPath_of_lib hsegments hfirst hmore]

/-- The `./` and slashes that lead a path. -/
def lead (dots slashes : Nat) : List Char :=
  (List.replicate dots "./".toList).flatten ++ List.replicate slashes '/'

/-- What leads a path leads nowhere. -/
theorem samePath_lead (dots slashes : Nat) (x : List Char) :
    SamePath ('/' :: x) ('/' :: (lead dots slashes ++ x)) := by
  induction dots with
  | zero =>
      induction slashes with
      | zero => exact SamePath.refl _
      | succ slashes ih => exact ih.trans (SamePath.behind [] _ (Or.inl rfl))
  | succ dots ih => exact ih.trans (SamePath.behind [] _ (Or.inr rfl))

/-- Copies of a pattern can be told from what follows them, if it starts with no further one. -/
theorem copies_unique {pattern : List Char} {n m : Nat} (hx : ¬pattern <+: x)
    (hy : ¬pattern <+: y)
    (h : (List.replicate n pattern).flatten ++ x = (List.replicate m pattern).flatten ++ y) :
    x = y := by
  induction n generalizing m with
  | zero =>
      cases m with
      | zero => exact h
      | succ m =>
          refine absurd ⟨(List.replicate m pattern).flatten ++ y, ?_⟩ hx
          rw [← List.append_assoc]
          exact h.symm
  | succ n ih =>
      cases m with
      | zero =>
          refine absurd ⟨(List.replicate n pattern).flatten ++ x, ?_⟩ hy
          rw [← List.append_assoc]
          exact h
      | succ m =>
          rw [List.replicate_succ, List.replicate_succ, List.flatten_cons, List.flatten_cons,
            List.append_assoc, List.append_assoc] at h
          exact ih (List.append_cancel_left h)

theorem forwardSlashes_lead (dots slashes : Nat) (x : List Char) :
    forwardSlashes (lead dots slashes ++ x) = lead dots slashes ++ forwardSlashes x := by
  induction dots with
  | zero =>
      induction slashes with
      | zero => rfl
      | succ slashes ih => exact congrArg ('/' :: ·) ih
  | succ dots ih => exact congrArg ('.' :: '/' :: ·) ih

/-- What is left of a path that is taken over. -/
theorem exists_lead (h : libName ∉ (segments path).dropLast) :
    ∃ dots slashes, forwardSlashes path = lead dots slashes ++ libraryPath path ∧
      ¬"./".toList <+: List.replicate slashes '/' ++ libraryPath path ∧
      (libraryPath path).head? ≠ some '/' := by
  obtain ⟨dots, slashes, hpath, hdots, hhead⟩ := exists_libraryPath h
  exact ⟨dots, slashes, hpath.trans (List.append_assoc _ _ _).symm, hdots, hhead⟩

/-- A path that is taken over can be respelled with all that leads it. -/
theorem samePath_taken_over (h : libName ∉ (segments path).dropLast) :
    SamePath ('/' :: libraryPath path) ('/' :: forwardSlashes path) := by
  obtain ⟨dots, slashes, hpath, -, -⟩ := exists_lead h
  rw [hpath]
  exact samePath_lead dots slashes _

theorem mem_libDirectories_lead (dots slashes : Nat) (rest : List Char) :
    libName ∈ (segments (lead dots slashes ++ rest)).dropLast ↔
      libName ∈ (segments rest).dropLast := by
  have hskip : ∀ component path, IsIdle component →
      (libName ∈ (segments (component ++ '/' :: path)).dropLast ↔
        libName ∈ (segments path).dropLast) := by
    intro component path hidle
    rw [mem_libDirectories, segments_of_idle hidle, List.mem_singleton, or_iff_right]
    exact fun heq => libName_not_idle (heq ▸ hidle)
  induction dots with
  | zero =>
      induction slashes with
      | zero => exact Iff.rfl
      | succ slashes ih => exact (hskip [] _ (Or.inl rfl)).trans ih
  | succ dots ih => exact (hskip ['.'] _ (Or.inr rfl)).trans ih

/-- How many `./` and slashes lead a path does not count. -/
theorem libraryPath_lead (dots slashes : Nat) (hrest : libName ∉ (segments rest).dropLast)
    (hdots : ¬"./".toList <+: forwardSlashes rest) :
    libraryPath (lead dots slashes ++ rest) = (forwardSlashes rest).dropWhile (· == '/') := by
  have hslashes : ¬"./".toList <+: List.replicate slashes '/' ++ forwardSlashes rest := by
    cases slashes with
    | zero => exact hdots
    | succ slashes =>
        rintro ⟨tail, htail⟩
        exact absurd (List.cons.inj htail).1 (by decide)
  obtain ⟨copies, hcopies, hdone⟩ := exists_dropCopies (show "./".toList ≠ [] by decide)
    (lead dots slashes ++ forwardSlashes rest)
  have hdropped := copies_unique hdone hslashes
    (hcopies.symm.trans (List.append_assoc _ _ _))
  rw [libraryPath_of_no_lib (mt (mem_libDirectories_lead dots slashes rest).mp hrest),
    forwardSlashes_lead, hdropped]
  exact List.dropWhile_append_of_pos fun c hc => beq_iff_eq.mpr (List.eq_of_mem_replicate hc)

/-! ### The part that is taken over -/

/-- Segments in front of others, each with a slash in front of it. -/
theorem rooted_append (front : List (List Char)) {more : List (List Char)} (h : more ≠ []) :
    '/' :: List.intercalate ['/'] (front ++ more)
      = front.flatMap ('/' :: ·) ++ '/' :: List.intercalate ['/'] more := by
  induction front with
  | nil => rfl
  | cons s front ih =>
      obtain ⟨next, others, hrest⟩ :=
        List.exists_cons_of_ne_nil (List.append_ne_nil_of_right_ne_nil front h)
      rw [List.cons_append, hrest, List.intercalate_cons_cons, ← hrest, List.append_assoc,
        List.singleton_append, ih, List.flatMap_cons]
      simp

/-- **What a URI names is respelled as the path is.** -/
theorem samePath_libraryPath (h : Respelled path other) :
    SamePath ('/' :: libraryPath path) ('/' :: libraryPath other) := by
  obtain ⟨front, rest, idle, hidle⟩ := h
  by_cases hfront : libName ∈ segments front
  · -- The first `lib` is behind neither of the two slashes: all that follows it is taken over.
    obtain ⟨before, back, hsegments, hfirst⟩ := List.eq_append_cons_of_mem hfront
    have hpath : segments (front ++ '/' :: rest)
        = before ++ libName :: (back ++ segments rest) := by
      rw [segments_append_slash, hsegments, List.append_assoc, List.cons_append]
    have hother : segments (front ++ '/' :: (idle ++ '/' :: rest))
        = before ++ libName :: (back ++ idle :: segments rest) := by
      rw [segments_behind front rest hidle, hsegments, List.append_assoc, List.cons_append]
    have hrest := segments_ne_nil rest
    obtain ⟨next, others, hnext⟩ := List.exists_cons_of_ne_nil hrest
    rw [libraryPath_of_lib hpath hfirst (List.append_ne_nil_of_right_ne_nil back hrest),
      libraryPath_of_lib hother hfirst (by simp), rooted_append back hrest,
      rooted_append back (List.cons_ne_nil idle _), hnext, List.intercalate_cons_cons, ← hnext,
      List.append_assoc, List.singleton_append]
    exact SamePath.behind _ _ hidle
  · have hbehind := mt (mem_libName_behind front hidle).mp hfront
    by_cases hrest : libName ∈ (segments rest).dropLast
    · have hother := libraryPath_in_front hbehind hrest
      rw [List.append_assoc, List.cons_append] at hother
      rw [libraryPath_in_front hfront hrest, hother]
      exact SamePath.refl _
    · have hpath := mt (mem_libDirectories front rest).mp (not_or.mpr ⟨hfront, hrest⟩)
      have hother := mt (mem_libDirectories (front ++ '/' :: idle) rest).mp
        (not_or.mpr ⟨hbehind, hrest⟩)
      rw [List.append_assoc, List.cons_append] at hother
      have hstep := SamePath.of_respelled
        (forwardSlashes_respelled (.behind front rest idle hidle))
      exact (samePath_taken_over hpath).trans (hstep.trans (samePath_taken_over hother).symm)

theorem samePath_withExtension (h : SamePath ('/' :: x) ('/' :: y)) :
    SamePath ('/' :: withExtension x) ('/' :: withExtension y) := by
  have hnone : '/' ∉ dartExtension := by decide
  have hrooted := h.iff (p := (dartExtension <:+ ·)) fun _ _ => extension_respelled
  have hends : dartExtension <:+ x ↔ dartExtension <:+ y :=
    (suffix_behind_slash hnone [] x).symm.trans (hrooted.trans (suffix_behind_slash hnone [] y))
  rw [withExtension, withExtension, endsWith, endsWith]
  by_cases hx : dartExtension <:+ x
  · rw [if_pos (List.isSuffixOf_iff_suffix.mpr hx),
      if_pos (List.isSuffixOf_iff_suffix.mpr (hends.mp hx))]
    exact h
  · rw [if_neg (mt List.isSuffixOf_iff_suffix.mp hx),
      if_neg (mt List.isSuffixOf_iff_suffix.mp (mt hends.mpr hx))]
    exact h.append dartExtension

/-! ### How the part begins -/

/-- Behind a directory `lib` the path goes on with a slash. -/
theorem slash_libraryPath_suffix (h : libName ∈ (segments path).dropLast) :
    '/' :: libraryPath path <:+ forwardSlashes path := by
  obtain ⟨front, more, hsegments, hfirst, hmore⟩ := exists_first_lib h
  obtain ⟨next, others, hnext⟩ := List.exists_cons_of_ne_nil hmore
  have hrooted := rooted_append front (List.cons_ne_nil libName more)
  rw [← hsegments, intercalate_segments, hnext, List.intercalate_cons_cons, ← hnext,
    ← libraryPath_of_lib hsegments hfirst hmore, List.append_assoc, List.singleton_append]
    at hrooted
  cases hfront : front.flatMap ('/' :: ·) with
  | nil =>
      rw [hfront] at hrooted
      exact ⟨libName, ((List.cons.inj hrooted).2).symm⟩
  | cons c cs =>
      rw [hfront] at hrooted
      refine ⟨cs ++ '/' :: libName, ?_⟩
      rw [(List.cons.inj hrooted).2]
      simp

/-- A path without repeated slashes and without `.` components behind a slash leaves neither at
the front. -/
theorem libraryPath_start (hslashes : ¬"//".toList <:+: forwardSlashes path)
    (hdots : ¬"/./".toList <:+: forwardSlashes path) :
    ¬"/".toList <+: libraryPath path ∧ ¬"./".toList <+: libraryPath path := by
  have hbehind : ∀ start : List Char, start <+: libraryPath path →
      '/' :: libraryPath path <:+ forwardSlashes path → '/' :: start <:+: forwardSlashes path := by
    rintro start ⟨tail, htail⟩ ⟨front, hfront⟩
    exact ⟨front, tail, by rw [← hfront, ← htail]; simp⟩
  by_cases hlib : libName ∈ (segments path).dropLast
  · have hsuffix := slash_libraryPath_suffix hlib
    exact ⟨fun h => hslashes (hbehind _ h hsuffix), fun h => hdots (hbehind _ h hsuffix)⟩
  · obtain ⟨dots, slashes, hpath, hlead, hhead⟩ := exists_lead hlib
    refine ⟨?_, fun h => ?_⟩
    · rintro ⟨tail, htail⟩
      exact hhead (htail ▸ rfl)
    · cases slashes with
      | zero => exact hlead h
      | succ slashes =>
          refine hdots (hbehind _ h ⟨lead dots slashes, ?_⟩)
          rw [hpath, lead, lead, List.replicate_succ']
          simp

/-- The extension does not begin a file with a directory. -/
theorem directory_prefix_withExtension (directory : List Char)
    (h : directory ++ ['/'] <+: withExtension x) : directory ++ ['/'] <+: x := by
  rw [withExtension] at h
  split at h
  · exact h
  · obtain ⟨tail, htail⟩ := h
    rw [List.append_assoc, List.singleton_append] at htail
    obtain ⟨more, rfl⟩ :=
      (suffix_behind_slash (by decide) directory tail).mp ⟨x, htail.symm⟩
    refine ⟨more, (List.append_left_inj dartExtension).mp ?_⟩
    rw [← htail]
    simp

/-! ### The import -/

/--
**The import names the same file however the path is spelled.**  The URIs of two spellings of a path
name two spellings of one file.  They are the same URI if the spellings differ in front of the
first directory `lib`, and if a path without one differs in the number of `./` and of slashes that
lead it.  What is named starts with no slash and no `./` if the path has no slash repeated and no
component `.` behind a slash.
-/
theorem packageUri_of_spellings (package : String) :
    (∀ path other : String, SamePath path.toList other.toList →
      ∃ file file' : String, packageUri package path = fileUri package file ∧
        packageUri package other = fileUri package file' ∧
        SamePath ('/' :: file.toList) ('/' :: file'.toList)) ∧
    (∀ front front' rest : String, SamePath (front ++ "/").toList (front' ++ "/").toList →
      libName ∉ segments front.toList → libName ∈ (segments rest.toList).dropLast →
      packageUri package (front ++ "/" ++ rest) = packageUri package (front' ++ "/" ++ rest)) ∧
    (∀ (dots slashes dots' slashes' : Nat) (rest : String),
      libName ∉ (segments rest.toList).dropLast →
      ¬"./".toList <+: forwardSlashes rest.toList →
      packageUri package (String.ofList (lead dots slashes) ++ rest)
        = packageUri package (String.ofList (lead dots' slashes') ++ rest)) ∧
    (∀ path : String, ¬"//".toList <:+: forwardSlashes path.toList →
      ¬"/./".toList <:+: forwardSlashes path.toList →
      ∃ file : String, packageUri package path = fileUri package file ∧
        ¬"/".toList <+: file.toList ∧ ¬"./".toList <+: file.toList) := by
  refine ⟨fun path other hsame => ?_, fun front front' rest hsame hfront hrest => ?_,
    fun dots slashes dots' slashes' rest hrest hdots => ?_, fun path hslashes hdots => ?_⟩
  · refine ⟨_, _, packageUri_eq package path, packageUri_eq package other, ?_⟩
    rw [String.toList_ofList, String.toList_ofList]
    exact hsame.map (f := fun path => '/' :: withExtension (libraryPath path)) fun _ _ hstep =>
      samePath_withExtension (samePath_libraryPath hstep)
  · refine packageUri_congr ?_
    have hends : ∀ front : String, libName ∈ segments (front ++ "/").toList ↔
        libName ∈ segments front.toList := by
      intro front
      rw [String.toList_append]
      exact mem_libName_behind front.toList (Or.inl rfl)
    have hfront' : libName ∉ segments front'.toList := by
      rw [← hends, ← hsame.iff (p := (libName ∈ segments ·)) fun _ _ => mem_libName_respelled,
        hends]
      exact hfront
    have hsplit : ∀ front : String, (front ++ "/" ++ rest).toList
        = front.toList ++ '/' :: rest.toList := by
      intro front
      simp
    rw [hsplit, hsplit, libraryPath_in_front hfront hrest, libraryPath_in_front hfront' hrest]
  · refine packageUri_congr ?_
    rw [String.toList_append, String.toList_append, String.toList_ofList, String.toList_ofList,
      libraryPath_lead dots slashes hrest hdots, libraryPath_lead dots' slashes' hrest hdots]
  · obtain ⟨hslash, hdot⟩ := libraryPath_start hslashes hdots
    refine ⟨_, packageUri_eq package path, fun h => ?_, fun h => ?_⟩
    · exact hslash (directory_prefix_withExtension [] (by simpa using h))
    · exact hdot (directory_prefix_withExtension ['.'] (by simpa using h))

/-- A slash repeated behind a directory, and a `.` put behind it. -/
theorem samePath_dotted_orders :
    SamePath "lib/orders/cart.dart".toList "lib/orders/.//cart.dart".toList := by
  have hrepeated := SamePath.behind "lib/orders".toList "cart.dart".toList (Or.inl rfl)
  have hdotted := SamePath.behind "lib/orders".toList "/cart.dart".toList (Or.inr rfl)
  exact hrepeated.trans hdotted

/-- A path with idle components behind its `lib`, one with them in front, one without a `lib`, and
one without any. -/
theorem uris_of_spellings :
    SamePath "lib/orders/cart.dart".toList "lib/orders/.//cart.dart".toList ∧
      (∃ file file' : String, packageUri "shop" "lib/orders/cart.dart" = fileUri "shop" file ∧
        packageUri "shop" "lib/orders/.//cart.dart" = fileUri "shop" file' ∧
        SamePath ('/' :: file.toList) ('/' :: file'.toList)) ∧
    SamePath ("work" ++ "/").toList ("work/." ++ "/").toList ∧
      libName ∉ segments "work".toList ∧
      libName ∈ (segments "mylib/lib/lib/cart.dart".toList).dropLast ∧
      packageUri "shop" ("work" ++ "/" ++ "mylib/lib/lib/cart.dart")
        = packageUri "shop" ("work/." ++ "/" ++ "mylib/lib/lib/cart.dart") ∧
    libName ∉ (segments "orders//lib".toList).dropLast ∧
      ¬"./".toList <+: forwardSlashes "orders//lib".toList ∧
      packageUri "shop" (String.ofList (lead 2 0) ++ "orders//lib")
        = packageUri "shop" (String.ofList (lead 1 3) ++ "orders//lib") ∧
    ¬"//".toList <:+: forwardSlashes "./lib\\orders/cart.dart".toList ∧
      ¬"/./".toList <:+: forwardSlashes "./lib\\orders/cart.dart".toList ∧
      ∃ file : String, packageUri "shop" "./lib\\orders/cart.dart" = fileUri "shop" file ∧
        ¬"/".toList <+: file.toList ∧ ¬"./".toList <+: file.toList := by
  obtain ⟨hsame, hfront, hlead, hstart⟩ := packageUri_of_spellings "shop"
  have hwork : SamePath ("work" ++ "/").toList ("work/." ++ "/").toList :=
    SamePath.behind "work".toList [] (Or.inr rfl)
  have hnone : libName ∉ segments "work".toList := by decide
  have hlib : libName ∈ (segments "mylib/lib/lib/cart.dart".toList).dropLast := by decide
  have hfile : libName ∉ (segments "orders//lib".toList).dropLast := by decide
  have hname : ¬"./".toList <+: forwardSlashes "orders//lib".toList := by decide
  have hslashes : ¬"//".toList <:+: forwardSlashes "./lib\\orders/cart.dart".toList := by decide
  have hdots : ¬"/./".toList <:+: forwardSlashes "./lib\\orders/cart.dart".toList := by decide
  exact ⟨samePath_dotted_orders, hsame _ _ samePath_dotted_orders, hwork, hnone, hlib,
    hfront _ _ _ hwork hnone hlib, hfile, hname, hlead 2 0 1 3 _ hfile hname, hslashes, hdots,
    hstart _ hslashes hdots⟩

/-- Behind the directory `lib` a spelling shows: the two imports of one file are two URIs. -/
theorem spelling_shows_in_uri :
    SamePath "lib/orders/cart.dart".toList "lib/orders//cart.dart".toList ∧
      packageUri "shop" "lib/orders/cart.dart" = "package:shop/orders/cart.dart" ∧
      packageUri "shop" "lib/orders//cart.dart" = "package:shop/orders//cart.dart" ∧
      packageUri "shop" "lib/orders//cart.dart" ≠ packageUri "shop" "lib/orders/cart.dart" :=
  ⟨SamePath.behind "lib/orders".toList "cart.dart".toList (Or.inl rfl), by decide, by decide,
    by decide⟩

end UseCases.Generation

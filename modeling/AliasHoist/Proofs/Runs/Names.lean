import AliasHoist.Proofs.FileSystem.Locating
import AliasHoist.Runs.Store
import AliasHoist.Text.Utf8

/-!
# Names in a state directory

A state directory holds the index, a file and a directory for every run, and the files beside them
through which they are written.  Their names stand for themselves in a path and never meet.

A file is that of a run by its name alone: whatever identifier is given, the file that is looked for
ends in `.json`, and nothing that is written beside a record does.

## Main Definitions

* `IsRunId`: what the identifiers of runs look like.

## Main Statements

* `IsRunId.isPlainName`, `IsRunId.isPlainName_file`: the names of a run;
* `isPlainName_backupName`: the names of backups;
* `demandsDirectory_child`: a path that ends with such a name can be that of a file;
* `placeOf_runFile_beside`: what the file of an identifier is called, and the one beside it.
-/

namespace AliasHoist

/-! ## Lengths of texts -/

/-- The size of a text is the sum of those of its characters, in the form that lists of
characters use. -/
theorem Text.utf8ByteSize_eq_byteLength (text : String) :
    text.utf8ByteSize = Text.byteLength text.toList := by
  suffices h : ∀ cs : List Char, (String.ofList cs).utf8ByteSize = Text.byteLength cs by
    simpa using h text.toList
  intro cs
  induction cs with
  | nil => rfl
  | cons c rest ih =>
      rw [String.ofList_cons, String.utf8ByteSize_append, String.utf8ByteSize_singleton, ih,
        byteLength_cons]

/-- A text has at least as many bytes as characters.  Names are limited by bytes while
digits are counted by characters; this and the next two lemmas go between the two. -/
theorem Text.length_le_utf8ByteSize (text : String) : text.toList.length ≤ text.utf8ByteSize := by
  rw [utf8ByteSize_eq_byteLength]
  induction text.toList with
  | nil => exact Nat.le_refl 0
  | cons c rest ih =>
      have := Char.utf8Size_pos c
      rw [byteLength_cons, List.length_cons]
      omega

/-- A text of characters of one byte has as many bytes as characters.  Names of
hexadecimal digits are of this kind. -/
theorem Text.utf8ByteSize_of_forall {text : String} (h : ∀ c ∈ text.toList, c.utf8Size = 1) :
    text.utf8ByteSize = text.toList.length := by
  rw [utf8ByteSize_eq_byteLength]
  revert h
  induction text.toList with
  | nil => exact fun _ => rfl
  | cons c rest ih =>
      intro h
      rw [byteLength_cons, List.length_cons, ih fun d mem => h d (List.mem_cons_of_mem _ mem),
        h c List.mem_cons_self, Nat.add_comm]

/-- No character takes more than four bytes.  It bounds names of which nothing is known
but their length, such as extensions. -/
theorem Text.utf8ByteSize_le (text : String) : text.utf8ByteSize ≤ 4 * text.toList.length := by
  rw [utf8ByteSize_eq_byteLength]
  induction text.toList with
  | nil => exact Nat.le_refl _
  | cons c rest ih =>
      have := c.utf8Size_le_four
      rw [byteLength_cons, List.length_cons]
      omega

/-! ## Digits in names -/

/-- What holds of all hexadecimal digits holds of the characters of bytes.  Sixteen
cases instead of one for every byte. -/
theorem Text.of_mem_hexBytes {P : Char → Prop} (h : ∀ n < 16, P (Text.hexDigit n))
    {bytes : List UInt8} {c : Char} (mem : c ∈ Text.hexBytes bytes) : P c := by
  induction bytes with
  | nil => simp [hexBytes] at mem
  | cons byte rest ih =>
      have high : byte.toNat / 16 < 16 := by
        have := byte.toNat_lt
        omega
      have low : byte.toNat % 16 < 16 := Nat.mod_lt _ (by decide)
      rcases List.mem_cons.mp mem with rfl | mem
      · exact h _ high
      · rcases List.mem_cons.mp mem with rfl | mem
        · exact h _ low
        · exact ih mem

/-- The characters of a digest are the hexadecimal digits of its bytes. -/
theorem toList_contentDigest (content : Content) :
    (contentDigest content).toList = Text.hexBytes (Blake3.digest content.bytes) := by
  rw [contentDigest, Blake3.hexDigest, String.toList_ofList]

/-- A digest has 64 characters, two for each of 32 bytes. -/
theorem length_contentDigest (content : Content) : (contentDigest content).toList.length = 64 := by
  rw [toList_contentDigest, Text.length_hexBytes, Blake3.length_digest]

/-- A digest has no slashes.  So it stands for one name in a path. -/
theorem slash_not_mem_contentDigest (content : Content) : '/' ∉ (contentDigest content).toList := by
  rw [toList_contentDigest]
  intro mem
  exact Text.of_mem_hexBytes (P := (· ≠ '/')) (by decide) mem rfl

/-- A digest is a short name.  With an extension behind it, it is still within the
longest name that a file can have. -/
theorem utf8ByteSize_contentDigest (content : Content) :
    (contentDigest content).utf8ByteSize = 64 := by
  rw [Text.utf8ByteSize_of_forall, length_contentDigest]
  rw [toList_contentDigest]
  intro c mem
  exact Text.of_mem_hexBytes (P := (·.utf8Size = 1)) (by decide) mem

/-- A digest has no character that the system refuses in a path. -/
theorem nul_not_mem_contentDigest (content : Content) :
    '\x00' ∉ (contentDigest content).toList := by
  rw [toList_contentDigest]
  intro mem
  exact Text.of_mem_hexBytes (P := (· ≠ '\x00')) (by decide) mem rfl

/-! ## Extensions -/

namespace Path

/-- The names among the components of a path have no slashes.  Components are got by
splitting at slashes. -/
theorem slash_not_mem_of_name_mem {path : Path} {text : String}
    (h : PathComponent.name text ∈ path.components) : '/' ∉ text.toList := by
  have inPieces : PathComponent.name text ∈
      (splitSlashes path.text.toList).filterMap componentOf? := by
    rw [components] at h
    split at h
    · simpa using h
    · split at h
      · simpa using h
      · exact h
  obtain ⟨piece, hpiece, named⟩ := List.mem_filterMap.mp inPieces
  have free := slash_not_mem_of_mem_splitSlashes hpiece
  unfold componentOf? at named
  split at named
  · simp at named
  · simp at named
  · simp at named
  · obtain rfl := PathComponent.name.inj (Option.some.inj named)
    simpa using free

/-- The last name of a path has no slashes either. -/
theorem slash_not_mem_fileName {path : Path} {name : String} (h : path.fileName? = some name) :
    '/' ∉ name.toList := by
  rw [fileName?] at h
  cases hlast : path.components.getLast? with
  | none => simp [hlast] at h
  | some last =>
      cases last with
      | name text =>
          simp only [hlast, Option.some.injEq] at h
          subst h
          exact slash_not_mem_of_name_mem (List.mem_of_getLast? hlast)
      | _ => simp [hlast] at h

/-- The extension of a path has no slash in it.  The extension goes into the name of the
backup, where a slash would lead to another directory. -/
theorem slash_not_mem_extension {path : Path} {ext : String}
    (h : path.extension? = some ext) : '/' ∉ ext.toList := by
  rw [extension?, Option.bind_eq_some_iff] at h
  obtain ⟨name, hname, hext⟩ := h
  simp only [extensionOf?] at hext
  split at hext
  · simp at hext
  · simp at hext
  · obtain rfl := Option.some.inj hext
    simp only [String.toList_ofList, List.mem_reverse]
    intro mem
    have inName := (List.takeWhile_sublist _).subset mem
    exact slash_not_mem_fileName hname (List.mem_reverse.mp inName)

end Path

/-- **The name of a backup is plain.**  It is the digest of the path and the extension
of the source.  So keeping a backup can never write out of the directory of its run,
whatever the source is called. -/
theorem isPlainName_backupName (path : Path) : IsPlainName (backupName path) := by
  have long := length_contentDigest (.text path.text)
  have free := slash_not_mem_contentDigest (.text path.text)
  rw [backupName]
  cases hext : path.extension? with
  | none =>
      refine isPlainName_of_length ?_ free
      rw [long]
      decide
  | some ext =>
      refine isPlainName_of_length ?_ ?_
      · simp only [String.toList_append, List.length_append, long]
        omega
      · simp [free, Path.slash_not_mem_extension hext]

/-! ## The names of runs -/

/-- **What the identifier of a run looks like**: seven hexadecimal digits.  The program
only makes identifiers of this kind, but it accepts any text where it is told which run
to undo. -/
structure IsRunId (id : String) : Prop where
  length_eq : id.toList.length = 7
  digits : ∀ c ∈ id.toList, (Text.hexValue? c).isSome = true

instance (id : String) : Decidable (IsRunId id) :=
  decidable_of_iff
    (id.toList.length = 7 ∧ id.toList.all (fun c => (Text.hexValue? c).isSome) = true)
    ⟨fun h => ⟨h.1, by simpa using h.2⟩, fun h => ⟨h.1, by simpa using h.2⟩⟩

namespace IsRunId

variable {id : String} (h : IsRunId id)
include h

/-- An identifier is one name in a path. -/
theorem slash_not_mem : '/' ∉ id.toList := by
  intro mem
  have := h.digits _ mem
  revert this
  decide

/-- The directory of a run has a plain name.  So it stands for a location right in the
state directory. -/
theorem isPlainName : IsPlainName id :=
  isPlainName_of_length (by rw [h.length_eq]; decide) h.slash_not_mem

/-- The directory of a run has a short name. -/
theorem utf8ByteSize_le : id.utf8ByteSize ≤ FileSystem.longestName := by
  have bound := Text.utf8ByteSize_le id
  rw [h.length_eq] at bound
  exact Nat.le_trans bound (by decide)

/-- The file of a run has a plain name.  And so does the file of the run, under a name
of its own. -/
theorem isPlainName_file : IsPlainName (id ++ ".json") :=
  isPlainName_of_length (by simp [h.length_eq]) (by simp [h.slash_not_mem])

/-- The file beside the file of a run has a plain name. -/
theorem isPlainName_beside : IsPlainName (id ++ ".json" ++ ".tmp") :=
  isPlainName_of_length (by simp [h.length_eq]) (by simp [h.slash_not_mem])

end IsRunId

/-- The index has a plain name. -/
theorem isPlainName_index : IsPlainName "runs.json" :=
  isPlainName_of_length (by decide) (by decide)

/-- The file beside the index has a plain name. -/
theorem isPlainName_index_beside : IsPlainName ("runs.json" ++ ".tmp") :=
  isPlainName_of_length (by decide) (by decide)

namespace FileSystem

/-- A path that ends with a plain name can be that of a file.  Only a slash or a dot at
the end demands a directory, and a plain name ends with neither. -/
theorem demandsDirectory_child (path : Path) {name : String} (plain : IsPlainName name) :
    demandsDirectory (path.child name) = false := by
  have last : ∃ c, name.toList.getLast? = some c ∧ c ≠ '/' := by
    cases hlast : name.toList.getLast? with
    | none => exact absurd (List.getLast?_eq_none_iff.mp hlast) plain.toList_ne_nil
    | some c =>
        refine ⟨c, rfl, ?_⟩
        rintro rfl
        exact plain.no_slash (List.mem_of_getLast? hlast)
  obtain ⟨c, hlast, hne⟩ := last
  rw [demandsDirectory, Path.child_text path plain]
  split
  · simp [List.getLast?_append, hlast, hne]
  · simp [List.getLast?_append, List.getLast?_cons, hlast, hne]

/-- Whether a path can be followed depends on the length of its last name only.  A path
has a longest length, so a name that fits in makes room for every shorter one. -/
theorem isFollowable_child_of_le {path : Path} {name other : String} (plain : IsPlainName name)
    (plain' : IsPlainName other) (noNul : '\x00' ∉ other.toList)
    (short : other.utf8ByteSize ≤ name.utf8ByteSize)
    (h : isFollowable (path.child name) = true) : isFollowable (path.child other) = true := by
  simp only [isFollowable, Bool.and_eq_true, Bool.not_eq_true', decide_eq_true_eq] at h ⊢
  rw [Path.child_text path plain] at h
  rw [Path.child_text path plain']
  obtain ⟨⟨_, free⟩, bound⟩ := h
  split at bound
  · rename_i hsep
    rw [if_pos hsep] at free ⊢
    simp only [String.utf8ByteSize_append] at bound ⊢
    refine ⟨⟨by simp [plain'.ne_empty], by simp_all⟩, by omega⟩
  · rename_i hsep
    rw [if_neg hsep] at free ⊢
    simp only [String.utf8ByteSize_append] at bound ⊢
    refine ⟨⟨by simp [plain'.ne_empty], by simp_all⟩, by omega⟩

end FileSystem

/-! ## Names of records -/

open FileSystem

/-- A record is never beside another one.  Hence a file that is being written is never
taken for a run. -/
theorem json_ne_tmp (a b : String) : a ++ ".json" ≠ b ++ ".tmp" := by
  intro same
  have last := congrArg (fun text : String => text.toList.getLast?) same
  simp [List.getLast?_append] at last

/-- Records of different stems have different names.  Different runs have different
files. -/
theorem json_ne_json {a b : String} (h : a ≠ b) : a ++ ".json" ≠ b ++ ".json" := by
  intro same
  exact h (by simpa [String.ext_iff] using same)

namespace Path

/-- What is put at the end of a text, without a slash, is put at the end of its last
piece.  It is said for all endings at once, so that the same pieces can be used for a
file and for the one beside it. -/
theorem splitSlashes_append_plain (front : List Char) :
    ∃ pieces last, ∀ plain, '/' ∉ plain →
      splitSlashes (front ++ plain) = pieces ++ [last ++ plain] := by
  induction front with
  | nil => exact ⟨[], [], fun plain h => splitSlashes_of_not_mem h⟩
  | cons c rest ih =>
      obtain ⟨pieces, last, split⟩ := ih
      by_cases slash : c = '/'
      · refine ⟨[] :: pieces, last, fun plain h => ?_⟩
        rw [List.cons_append, splitSlashes, split plain h, if_pos slash, List.cons_append]
      · cases pieces with
        | nil =>
            refine ⟨[], c :: last, fun plain h => ?_⟩
            rw [List.cons_append, splitSlashes, split plain h, if_neg slash]
            rfl
        | cons piece others =>
            refine ⟨(c :: piece) :: others, last, fun plain h => ?_⟩
            rw [List.cons_append, splitSlashes, split plain h, if_neg slash]
            rfl

end Path

/-- Where a text leads once something is put at its end that is no dot and has no slash.
The names and the last name do not depend on the ending: that is the order of the
quantifiers.  Two characters would not do, as the last piece could then become the two
dots. -/
theorem exists_placeOf_append (front : List Char) :
    ∃ names last, ∀ (fs : FileSystem) (path : Path) (ending : String),
      path.text.toList = front ++ ending.toList → '/' ∉ ending.toList →
      2 < ending.toList.length →
      fs.placeOf path = walk (fs.origin path) names ++ [last ++ ending] := by
  obtain ⟨pieces, last, split⟩ := Path.splitSlashes_append_plain front
  refine ⟨(pieces.filter (· != [])).map String.ofList, String.ofList last, ?_⟩
  intro fs path ending htext noSlash long
  have nonempty : last ++ ending.toList ≠ [] := by
    intro empty
    simp [(List.append_eq_nil_iff.mp empty).2] at long
  have names : pathNames path =
      ((pieces.filter (· != [])).map String.ofList) ++ [String.ofList last ++ ending] := by
    rw [pathNames, htext, split _ noSlash]
    simp [String.ofList_append, nonempty]
  have length : 2 < (String.ofList last ++ ending).toList.length := by
    rw [String.toList_append, List.length_append]
    omega
  have noDot : String.ofList last ++ ending ≠ "." := by
    intro same
    rw [same] at length
    simp at length
  have noDots : String.ofList last ++ ending ≠ ".." := by
    intro same
    rw [same] at length
    simp at length
  rw [placeOf, names, walk_append]
  rw [walk_cons, nextLocation, if_neg noDot, if_neg noDots, walk]

/-- **The file of a run has a name that tells so**, whatever the identifier, and so has
the one beside it.  Both have the same directory and the same stem, wherever the
identifier leads. -/
theorem placeOf_runFile_beside (fs : FileSystem) (state : Path) (id : String) :
    ∃ directory name, fs.placeOf (runFile id state) = directory ++ [name ++ ".json"] ∧
      fs.placeOf ((runFile id state).append ".tmp") = directory ++ [name ++ (".json" ++ ".tmp")] := by
  obtain ⟨front, text⟩ : ∃ front, (runFile id state).text.toList = front ++ ".json".toList := by
    rw [runFile, Path.child, Path.join]
    split
    · exact ⟨id.toList, by simp⟩
    · split
      · exact ⟨state.text.toList ++ id.toList, by simp⟩
      · exact ⟨state.text.toList ++ '/' :: id.toList, by simp⟩
  have beside : ((runFile id state).append ".tmp").text.toList =
      front ++ (".json" ++ ".tmp").toList := by
    simp [Path.append, text]
  obtain ⟨names, last, place⟩ := exists_placeOf_append front
  have origin : fs.origin ((runFile id state).append ".tmp") = fs.origin (runFile id state) := by
    rw [origin, Path.isAbsolute, beside, origin, Path.isAbsolute, text]
    cases front <;> rfl
  refine ⟨walk (fs.origin (runFile id state)) names, last, ?_, ?_⟩
  · exact place fs _ ".json" text (by decide) (by decide)
  · rw [place fs _ (".json" ++ ".tmp") beside (by decide) (by decide), origin]

/-- The file of a run has a name that tells so, whatever the identifier.  So no
identifier makes a run out of a source or a backup: the name of what is read ends in
`.json`. -/
theorem placeOf_runFile (fs : FileSystem) (state : Path) (id : String) :
    ∃ directory name, fs.placeOf (runFile id state) = directory ++ [name ++ ".json"] := by
  obtain ⟨directory, name, place, -⟩ := placeOf_runFile_beside fs state id
  exact ⟨directory, name, place⟩

end AliasHoist

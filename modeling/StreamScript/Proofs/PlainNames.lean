import StreamScript.Application
import StreamScript.Proofs.Closure
import StreamScript.Proofs.Separators

/-!
# Plain names

A script names a file by a text, and the text is taken for a name if it is the
last part of itself as a path. That refuses all that reading a path leaves out
or follows: slashes wherever they stand, the part `.`, the part `..`, and the
empty text. It refuses nothing else (`Path.isPlainName_iff`).

The path of a folder continued by a plain name has one part more than the path
of the folder, and that part is the name (`Path.parts_join`). What is opened in
a run are such paths only, whatever opening a file does (`Program.run_noting`),
and in a tree of files such a path leads to an entry of the folder itself
(`FileTree.locate_join`). The command reads its folder before the run, and has
for a name what the tree has at the path that is opened then
(`Application.loadFile_readFolder`).
-/

namespace StreamScript

/-! ## Paths

A path is split at its slashes into pieces. Pieces that are empty or `.` are
left out, and what is left are its parts. The file name of a path is its last
part, if that is not `..`. A text that is its own file name has no slash, since
a part has none, and is a part itself. -/

namespace Path

variable {name : String}

/-- A text without slashes is one piece. -/
theorem pieces_of_not_mem (h : '/' ∉ name.toList) : pieces name = [name] := by
  rw [pieces, Text.splitOn_of_not_mem h, List.map_singleton,
    String.ofList_toList]

/-- If it is also neither empty nor `.`, it is one part. -/
theorem parts_eq_singleton (h : '/' ∉ name.toList) (hempty : name ≠ "")
    (hdot : name ≠ ".") :
    parts name = [name] := by
  rw [parts, pieces_of_not_mem h]
  simp [hempty, hdot]

/-- A part of a path has no slash, is not empty and not `.`. -/
theorem of_mem_parts {path part : String} (h : part ∈ parts path) :
    '/' ∉ part.toList ∧ part ≠ "" ∧ part ≠ "." := by
  obtain ⟨hpiece, hpart⟩ := List.mem_filter.1 h
  obtain ⟨piece, hmem, rfl⟩ := List.mem_map.1 hpiece
  refine ⟨fun hslash => ?_, of_decide_eq_true hpart⟩
  rw [String.toList_ofList] at hslash
  exact Text.not_isInfix_of_mem_splitOn (List.cons_ne_nil _ _) hmem
    ((List.singleton_infix_iff _ _).2 hslash)

/-- The file name is the last part, unless this leads up. -/
theorem fileName?_eq_some_iff {path : String} :
    fileName? path = some name ↔ (parts path).getLast? = some name ∧
      name ≠ ".." := by
  rw [fileName?]
  cases (parts path).getLast? with
  | none => simp
  | some part =>
    dsimp only
    split
    · next hup => simp [hup, eq_comm]
    · next hup =>
      constructor
      · rintro ⟨⟩
        exact ⟨rfl, hup⟩
      · exact fun h => h.1

/-- **The plain names** are the texts that are not empty, have no slash, and
are neither `.` nor `..`. The definition asks something shorter, that the name
is the file name of itself. A text that ends with a slash, or has one at its
beginning, has a file name that is another text. -/
theorem isPlainName_iff :
    isPlainName name = true ↔ name ≠ "" ∧ '/' ∉ name.toList ∧ name ≠ "." ∧
      name ≠ ".." := by
  rw [isPlainName, beq_iff_eq, fileName?_eq_some_iff]
  constructor
  · rintro ⟨hlast, hup⟩
    obtain ⟨hslash, hempty, hdot⟩ := of_mem_parts (List.mem_of_getLast? hlast)
    exact ⟨hempty, hslash, hdot, hup⟩
  · rintro ⟨hempty, hslash, hdot, hup⟩
    rw [parts_eq_singleton hslash hempty hdot]
    exact ⟨rfl, hup⟩

/-- **A folder's path continued by a name** has the name as its last piece,
behind those of the folder. What stands before it are the pieces of the
folder's path, and perhaps an empty one, if that path ends with a slash.
Neither this nor the empty folder makes a difference to the parts. -/
theorem exists_pieces_join (h : '/' ∉ name.toList) (folder : String) :
    ∃ before, pieces (join folder name) = before ++ [name] ∧
      before.filter (fun part => part ≠ "" ∧ part ≠ ".") = parts folder := by
  have hhead : name.toList.head? ≠ some '/' :=
    fun hhead => h (List.mem_of_head? hhead)
  rw [join, if_neg hhead]
  split
  · next hfolder =>
    obtain rfl | hslash := hfolder
    · refine ⟨[], ?_, ?_⟩
      · rw [String.empty_append, pieces_of_not_mem h, List.nil_append]
      · rw [parts, pieces_of_not_mem List.not_mem_nil]
        rfl
    -- The piece behind the slash at the end is empty, and the name takes its
    -- place.
    · obtain ⟨cs, hcs⟩ := List.getLast?_eq_some_iff.1 hslash
      refine ⟨(Text.splitOn ['/'] cs).map String.ofList, ?_, ?_⟩
      · rw [pieces, String.toList_append, hcs, List.append_assoc,
          List.singleton_append, Text.splitOn_concat h, List.map_append,
          List.map_singleton, String.ofList_toList]
      · rw [parts, pieces, hcs, Text.splitOn_concat List.not_mem_nil,
          List.map_append, List.filter_append]
        simp
  · refine ⟨pieces folder, ?_, rfl⟩
    rw [pieces, String.toList_append, String.toList_append]
    show (Text.splitOn ['/'] (folder.toList ++ ['/'] ++ name.toList)).map
        String.ofList = _
    rw [List.append_assoc, List.singleton_append, Text.splitOn_concat h,
      List.map_append, List.map_singleton, String.ofList_toList]
    rfl

/-- **The path of a file in a folder** has the parts of the folder, and then
the name. Parts are what is left of the pieces if empty ones and those that are
`.` are passed over. A plain name is neither, so it is a part, and the last. -/
theorem parts_join (h : isPlainName name = true) (folder : String) :
    parts (join folder name) = parts folder ++ [name] := by
  obtain ⟨hempty, hslash, hdot, -⟩ := isPlainName_iff.1 h
  obtain ⟨before, hpieces, hbefore⟩ := exists_pieces_join hslash folder
  rw [parts, hpieces, List.filter_append, hbefore]
  simp [hempty, hdot]

/-- It leads to a file as well as to a folder. -/
theorem asksForFolder_join (h : isPlainName name = true) (folder : String) :
    asksForFolder (join folder name) = false := by
  obtain ⟨hempty, hslash, hdot, -⟩ := isPlainName_iff.1 h
  obtain ⟨before, hpieces, -⟩ := exists_pieces_join hslash folder
  rw [asksForFolder, hpieces, List.getLast?_concat]
  simp [hempty, hdot]

end Path

/-! ## Trees of files

A tree of files stands for the file system: names lead from a folder to its
entries, and `..` leads back. It is used to say where a path leads, and a
statement about all trees is one about every state that the files may be in. -/

namespace FileTree

variable {t : FileTree} {name : String}

/-- What is behind parts is looked for where they lead to. The parts that have
been followed are kept in reverse, innermost first, as the way back. -/
theorem follow_append (t : FileTree) (here parts rest : List String) :
    t.follow here (parts ++ rest) = (t.follow here parts >>= fun found =>
      t.follow found.1.reverse rest) := by
  induction parts generalizing here with
  | nil =>
    rw [List.nil_append, follow]
    cases hnode : t.node? here.reverse with
    | none =>
      cases rest with
      | nil => rw [follow, hnode]; rfl
      | cons part rest => rw [follow, hnode]; rfl
    | some node =>
      show _ = t.follow here.reverse.reverse rest
      rw [List.reverse_reverse]
  | cons part parts ih =>
    rw [List.cons_append, follow, follow]
    split
    · rfl
    · rfl
    · split
      · rfl
      · split
        · exact ih here.tail
        · exact ih (part :: here)

/-- What is found is what is at the place. -/
theorem node?_of_follow {here parts place : List String} {node : FileNode}
    (h : t.follow here parts = .ok (place, node)) :
    t.node? place = some node := by
  induction parts generalizing here with
  | nil =>
    rw [follow] at h
    split at h
    · next hnode =>
      cases h
      exact hnode
    · cases h
  | cons part parts ih =>
    rw [follow] at h
    split at h
    · cases h
    · cases h
    · split at h
      · cases h
      · split at h
        · exact ih h
        · exact ih h

/-- **What a name leads to**, behind a place where there is something. Only a
folder can be entered. What is there is looked up under the place of the folder
continued by the name, and there may be nothing. -/
def lookFor (t : FileTree) (name : String) (found : List String × FileNode) :
    Except FileError (List String × FileNode) :=
  match found with
  | (_, .file _) => .error .notAFolder
  | (place, .folder) =>
    if isTooLong name then .error .nameTooLong
    else
      match t.node? (place ++ [name]) with
      | some node => .ok (place ++ [name], node)
      | none => .error .notFound

/-- **One more name** leads on from where the parts before it lead to. That the
name is not `..` matters: such a part leads back, and what it leads to depends
on the way that was come by. -/
theorem follow_concat (hup : name ≠ "..") (parts : List String) :
    t.follow [] (parts ++ [name]) = t.follow [] parts >>= t.lookFor name := by
  rw [follow_append]
  cases hfollow : t.follow [] parts with
  | error e => rfl
  | ok found =>
    obtain ⟨place, node⟩ := found
    have hname : (name == "..") = false := beq_eq_false_iff_ne.2 hup
    show t.follow place.reverse [name] = t.lookFor name (place, node)
    rw [follow, List.reverse_reverse, node?_of_follow hfollow, hname]
    cases node with
    | file bytes => rfl
    | folder =>
      show (if _ then _ else t.follow _ _) = _
      rw [follow, List.reverse_cons, List.reverse_reverse]
      rfl

/-! ## Files in a folder

A folder is given by its path, and a file in it by the path continued with a
name. The empty path stands for the folder the command runs in, which is listed
under `.`; continued by a name it is the name alone. -/

/-- The path under which a folder is listed. -/
def listed (path : String) : String :=
  if path.isEmpty then "." else path

/-- To list the empty path as `.` changes none of its parts. -/
theorem parts_listed (path : String) :
    Path.parts (listed path) = Path.parts path := by
  rw [listed]
  split
  · next h =>
    obtain rfl := String.isEmpty_iff.1 h
    rw [Path.parts, Path.parts, Path.pieces_of_not_mem (by decide),
      Path.pieces_of_not_mem (by decide)]
    rfl
  · rfl

theorem holdsNul_listed (path : String) :
    holdsNul (listed path) = holdsNul path := by
  rw [listed]
  split
  · next h =>
    obtain rfl := String.isEmpty_iff.1 h
    rfl
  · rfl

theorem isEmpty_listed (path : String) : (listed path).isEmpty = false := by
  rw [listed]
  split
  · rfl
  · next h => exact Bool.eq_false_iff.2 h

theorem holdsNul_join (path name : String) (h : Path.isPlainName name = true) :
    holdsNul (Path.join path name) = (holdsNul path || holdsNul name) := by
  have hhead : name.toList.head? ≠ some '/' := fun hhead =>
    (Path.isPlainName_iff.1 h).2.1 (List.mem_of_head? hhead)
  rw [Path.join, if_neg hhead]
  split
  · simp [holdsNul]
  · simp [holdsNul]

theorem isEmpty_join (path : String) (h : Path.isPlainName name = true) :
    (Path.join path name).isEmpty = false := by
  obtain ⟨hempty, hslash, -, -⟩ := Path.isPlainName_iff.1 h
  obtain ⟨before, hpieces, -⟩ := Path.exists_pieces_join hslash path
  refine Bool.eq_false_iff.2 fun hjoin => hempty ?_
  rw [String.isEmpty_iff.1 hjoin,
    Path.pieces_of_not_mem List.not_mem_nil] at hpieces
  exact (List.append_singleton_inj.1
    (hpieces.symm.trans (List.nil_append _).symm)).2

/-- **A plain name leads to an entry of the folder itself.** There is no way
from such a path to anything above the folder, beside it, or deeper below it.
-/
theorem locate_join (h : Path.isPlainName name = true) (path : String) :
    t.locate (Path.join path name) =
      if holdsNul name then .error .nulInName
      else t.locate (listed path) >>= t.lookFor name := by
  have hup := (Path.isPlainName_iff.1 h).2.2.2
  rw [locate, locate, isEmpty_join path h, isEmpty_listed,
    holdsNul_join path name h, holdsNul_listed, Path.parts_join h, parts_listed,
    follow_concat hup, Path.asksForFolder_join h]
  cases holdsNul name <;> cases holdsNul path
  case false.false =>
    -- A file in the place of the folder is refused on both sides, but for
    -- different reasons.
    rcases t.follow [] (Path.parts path) with e | ⟨place, bytes | _⟩
    · rfl
    · cases Path.asksForFolder (listed path) <;> rfl
    · show t.lookFor name (place, .folder) >>= _ = t.lookFor name
          (place, .folder)
      rcases t.lookFor name (place, .folder) with e | ⟨place', bytes | _⟩ <;>
          rfl
  all_goals rfl

/-- What is somewhere in the tree belongs to an entry there or below. -/
theorem exists_entry_of_node? {place : List String} {node : FileNode}
    (h : t.node? (place ++ [name]) = some node) :
    ∃ entry ∈ t.entries, ∃ rest, place ++ name :: rest = entry.1 := by
  rw [node?, if_neg (by simp)] at h
  split at h
  · next found hfound =>
    obtain ⟨before, after, hentries, -⟩ := List.lookup_eq_some_iff.1 hfound
    exact ⟨(place ++ [name], found), by simp [hentries], [], rfl⟩
  · split at h
    · next hany =>
      obtain ⟨entry, hmem, hprefix⟩ := List.any_eq_true.1 hany
      obtain ⟨rest, hrest⟩ := List.isPrefixOf_iff_prefix.1 hprefix
      exact ⟨entry, hmem, rest, by
        rw [← hrest, List.append_assoc, List.singleton_append]⟩
    · cases h

/-- Keys with what a function gives for them, looked up. -/
theorem lookup_filterMap {α : Type} (f : String → Option α) (keys : List String)
    (key : String) :
    (keys.filterMap fun k => (f k).map fun a => (k, a)).lookup key
      = if key ∈ keys then f key else none := by
  induction keys with
  | nil => rfl
  | cons k keys ih =>
    rw [List.filterMap_cons]
    by_cases hkey : key = k
    · subst hkey
      rw [if_pos List.mem_cons_self]
      cases hf : f key with
      | none => simp [ih, hf]
      | some a => simp
    · have hne : (key == k) = false := beq_eq_false_iff_ne.2 hkey
      cases f k with
      | none => simp [ih, hkey]
      | some a => simp [List.lookup_cons, hne, ih, hkey]

/-- **The entries of a folder**, looked up by name, are what is there under
that name. A tree holds one thing at most under a path, and so a folder has one
entry at most under a name. -/
theorem lookup_entriesAt (t : FileTree) (place : List String) (name : String) :
    (t.entriesAt place).lookup name = t.node? (place ++ [name]) := by
  rw [entriesAt, lookup_filterMap]
  split
  · rfl
  · next hmem =>
    refine (Option.eq_none_iff_forall_ne_some.2 fun node hnode => hmem ?_).symm
    obtain ⟨entry, hentry, rest, hrest⟩ := exists_entry_of_node? hnode
    refine List.mem_eraseDups.2 (List.mem_filterMap.2 ⟨entry, hentry, ?_⟩)
    rw [List.isPrefixOf?_eq_some_iff_append_eq.2 hrest]

/-- **What the folder that was found gives** for a plain name is what the tree
has at the path of the folder continued by the name. When the folder was listed
and when the file is opened the tree is the same one. That the command keeps
the entries and does not ask again is then not to be seen. -/
theorem read_listFolder (h : Path.isPlainName name = true) (t : FileTree)
    (path : String) :
    (Folder.mk path (t.listFolder (listed path))).read name
      = t.readText (Path.join path name) := by
  rw [Folder.read, readText, locate_join h, listFolder]
  cases holdsNul name
  · rcases t.locate (listed path) with e | ⟨place, bytes | _⟩
    · rfl
    · rfl
    · show (if isTooLong name = true then Except.error FileError.nameTooLong
        else ((t.entriesAt place).lookup name).elim (.error .notFound)
          FileNode.text)
          = t.lookFor name (place, .folder) >>= _
      rw [lookup_entriesAt, lookFor]
      split
      · rfl
      · cases t.node? (place ++ [name]) <;> rfl
  · rfl

end FileTree

/-! ## Writing down what is opened

A host that writes down the paths at which it opens files does everything else
as before. So to say which files a run opens is to say what is written down
when the same run is made with such a host. That every run can be made with it,
and comes to the same, is an instance of what every run keeps. -/

variable {σ α β : Type}

/-- **A folder that writes down the paths at which files are opened.** A file
is opened by the folder as before, and its path is appended to the list. So the
list is the history of what was opened, in order, whether or not opening
succeeded. -/
def OpenFolder.noting (f : OpenFolder σ) : OpenFolder (σ × List String) where
  path := f.path
  fileNames := f.fileNames
  openFile path s :=
    let (text, state) := f.openFile path s.1
    (text, state, s.2 ++ [path])
  putAside label v s := (f.putAside label v s.1, s.2)

/-- The world in which some paths have been written down. -/
def World.withPaths (w : World σ) (paths : List String) :
    World (σ × List String) :=
  { host := (w.host, paths), generation := w.generation }

/-- **An act that does the same as another and writes down paths**, all of them
of one kind. Besides, the two have the same result and leave the same world.
Paths that were written down before stay in front. -/
def Act.Notes (Kind : String → Prop) (x : Act σ α)
    (y : Act (σ × List String) α) : Prop :=
  ∀ w paths, ∃ more, (∀ path ∈ more, Kind path) ∧
    y.exec (w.withPaths paths)
    = ((x.exec w).1, (x.exec w).2.withPaths (paths ++ more))

/-- A drive that does the same as another and writes down paths of one kind. -/
def Drive.Notes (Kind : String → Prop) (x : Drive σ α)
    (y : Drive (σ × List String) α) : Prop :=
  ∀ q w paths, ∃ more, (∀ path ∈ more, Kind path) ∧
    y.exec q (w.withPaths paths) =
      ((x.exec q w).1, (x.exec q w).2.1,
        (x.exec q w).2.2.withPaths (paths ++ more))

variable {Kind : String → Prop}

theorem Act.notes_closed :
    Act.Closed fun (x : Act σ _) (y : Act (σ × List String) _) =>
      Act.Notes Kind x y where
  pure a w paths := ⟨[], nofun, by rw [List.append_nil]; rfl⟩
  throw e _ w paths := ⟨[], nofun, by rw [List.append_nil]; rfl⟩
  bind {_ _ x y f g} hx hf w paths := by
    obtain ⟨more, hmore, hy⟩ := hx w paths
    rw [Act.exec_bind, Act.exec_bind, hy]
    rcases x.exec w with ⟨e | a, v⟩
    · exact ⟨more, hmore, rfl⟩
    · obtain ⟨more', hmore', hg⟩ := hf a v (paths ++ more)
      exact ⟨more ++ more', List.forall_mem_append.2 ⟨hmore, hmore'⟩,
        hg.trans (by rw [List.append_assoc])⟩

/-- Where nothing is opened, nothing is written down. -/
theorem Drive.Notes.of_eq {x : Drive σ α} {y : Drive (σ × List String) α}
    (h : ∀ q w paths, y.exec q (w.withPaths paths) =
      ((x.exec q w).1, (x.exec q w).2.1, (x.exec q w).2.2.withPaths paths)) :
    Drive.Notes Kind x y :=
  fun q w paths => ⟨[], nofun, by rw [List.append_nil, h]⟩

/-- What a drive does besides asking the host is not written down. -/
theorem Drive.notes_coupled (f : OpenFolder σ) :
    Drive.Coupled (Act.Notes Kind) (Drive.Notes Kind) f.host f.noting.host where
  pure a := .of_eq fun _ _ _ => rfl
  bind {_ _ x y g g'} hx hg q w paths := by
    obtain ⟨more, hmore, hy⟩ := hx q w paths
    rw [exec_bind, exec_bind, hy]
    rcases x.exec q w with ⟨e | a, q', v⟩
    · exact ⟨more, hmore, rfl⟩
    · obtain ⟨more', hmore', hg⟩ := hg a q' v (paths ++ more)
      exact ⟨more ++ more', List.forall_mem_append.2 ⟨hmore, hmore'⟩,
        hg.trans (by rw [List.append_assoc])⟩
  machine := .of_eq fun _ _ _ => rfl
  become m := .of_eq fun _ _ _ => rfl
  arrive line := .of_eq fun _ _ _ => rfl
  pause := .of_eq fun _ _ _ => rfl
  perform hx q w paths := by
    obtain ⟨more, hmore, hy⟩ := hx w paths
    exact ⟨more, hmore, by rw [exec_perform, exec_perform, hy]⟩
  blame {_ x y} line hx q w paths := by
    obtain ⟨more, hmore, hy⟩ := hx q w paths
    refine ⟨more, hmore, ?_⟩
    rw [exec_blame, exec_blame, hy]
    rcases x.exec q w with ⟨e | a, q', v⟩ <;> rfl

/-- A line that fits no form opens nothing. -/
theorem Drive.notes_suits (s : Placed Step) :
    Drive.Suits (fun (x : Drive σ _) (y : Drive (σ × List String) _) =>
      Drive.Notes Kind x y) s :=
  fun _ _ => .of_eq fun _ _ _ => rfl

theorem Drive.notes_isSuperseded (f : OpenFolder σ) (token : Option Nat) :
    Drive.Notes Kind (Drive.isSuperseded f.host token)
      (Drive.isSuperseded f.noting.host token) :=
  .of_eq fun _ _ _ => rfl

/-- **A path that leads to an entry of a folder**: that of the folder continued
by a plain name. What `..` in the folder's own path means is up to whoever has
given the path; no name adds another one. -/
def Path.IsEntryOf (folder path : String) : Prop :=
  ∃ name, Path.isPlainName name = true ∧ path = Path.join folder name

namespace OpenFolder

variable {name : String}

/-- A plain name is looked for in the folder. -/
theorem loadFile_of_isPlainName (h : Path.isPlainName name = true)
    (f : OpenFolder σ) (state : σ) :
    f.host.loadFile name state =
      { answer := (f.openFile (Path.join f.path name) state).1.mapError fun e =>
          name ++ ": " ++ e.message
        state := (f.openFile (Path.join f.path name) state).2 } :=
  if_pos h

/-- Any other text is refused, and nothing is opened. -/
theorem loadFile_of_not_isPlainName (h : ¬ Path.isPlainName name = true)
    (f : OpenFolder σ) (state : σ) :
    f.host.loadFile name state =
      { answer := .error ("'" ++ name ++ "' is not a file name"), state } :=
  if_neg h

/-- **The host writes down entries of its folder only.** Only `loadFile` opens
anything, and it refuses a name that is not plain before it does. -/
theorem related_noting (f : OpenFolder σ) :
    Host.Related (Act.Notes (Path.IsEntryOf f.path)) f.host f.noting.host where
  sideOutput label v w paths := ⟨[], nofun, by rw [List.append_nil]; rfl⟩
  listFiles w paths := ⟨[], nofun, by rw [List.append_nil]; rfl⟩
  loadFile name w paths := by
    by_cases h : Path.isPlainName name = true
    · refine ⟨[Path.join f.path name],
        fun path hpath => ⟨name, h, List.mem_singleton.1 hpath⟩, ?_⟩
      rw [Act.exec_request, Act.exec_request, loadFile_of_isPlainName h,
        loadFile_of_isPlainName h]
      rfl
    · refine ⟨[], nofun, ?_⟩
      rw [List.append_nil, Act.exec_request, Act.exec_request,
        loadFile_of_not_isPlainName h, loadFile_of_not_isPlainName h]
      rfl

end OpenFolder

/-- Calls of functions write down entries of the folder only. -/
theorem Program.notes_callables (p : Program) (f : OpenFolder σ)
    (globals : Bindings Value) :
    Callables.Related (Act.Notes (Path.IsEntryOf f.path))
      (p.callables f.host globals) (p.callables f.noting.host globals) := by
  refine p.call_related Act.notes_closed (Drive.notes_coupled f)
    f.related_noting (Drive.notes_isSuperseded f none) ?_
    (fun _ _ s _ => Drive.notes_suits s) globals callLimit
  intro d calls calls' globals target arguments hlines w paths
  obtain ⟨more, hmore, hnoted⟩ :=
    hlines (.start target (d.locals globals arguments)) w paths
  refine ⟨more, hmore, ?_⟩
  rw [FunctionDef.exec_run, FunctionDef.exec_run, hnoted]
  rcases (Drive.lines f.host calls none d.body).exec
    (.start target (d.locals globals arguments)) w with ⟨e | ending, q, v⟩ <;>
    rfl

/-- **A run opens entries of the folder only**, and to write them down is all
that is done besides. The paths are those of the whole run, of all lines on all
branches and of all functions that are called. It is the theorem on couplings,
with hosts of two kinds. -/
theorem Program.run_noting (p : Program) (f : OpenFolder σ)
    (globals : Bindings Value) (input : Value) (w : World σ) :
    ∃ opened, (∀ path ∈ opened, Path.IsEntryOf f.path path) ∧
      (p.run f.noting.host globals input).run (w.withPaths []) =
        (((p.run f.host globals input).run w).1,
          ((p.run f.host globals input).run w).2.withPaths opened) := by
  obtain ⟨opened, hopened, hnoted⟩ :=
    Drive.lines_related Act.notes_closed (Drive.notes_coupled f)
    (p.notes_callables f globals)
    (Drive.notes_isSuperseded f (some (w.generation + 1)))
    (fun s (_ : s ∈ p.steps) => Drive.notes_suits s)
    (.start input globals) w.begin []
  refine ⟨opened, hopened, ?_⟩
  unfold run
  rw [run_runLines, run_runLines]
  exact congrArg (fun (r, q, v) => (RunResult.of? r q, v)) hnoted

/-! ## What can be opened

What was said about single paths, about the tree and about runs is put
together. The folder that the command reads in before the run is a special case
of a folder whose files are opened when they are asked for. -/

/-- **Whatever is at such a path** is in the folder itself, under the name.
This is said of the tree and not of the path as a text: however the path of the
folder is written, the file lies directly below the place that it leads to. -/
theorem FileTree.exists_folder_of_locate {t : FileTree} {folder name : String}
    {place : List String} {node : FileNode} (h : Path.isPlainName name = true)
    (hlocate : t.locate (Path.join folder name) = .ok (place, node)) :
    ∃ here, t.locate (listed folder) = .ok (here, .folder) ∧
      place = here ++ [name] := by
  rw [locate_join h] at hlocate
  split at hlocate
  · cases hlocate
  · rcases hfolder : t.locate (listed folder) with e | ⟨here, bytes | _⟩ <;>
      rw [hfolder] at hlocate
    · cases hlocate
    · cases hlocate
    · refine ⟨here, rfl, ?_⟩
      change t.lookFor name (here, .folder) = .ok (place, node) at hlocate
      rw [lookFor] at hlocate
      split at hlocate
      · cases hlocate
      · split at hlocate
        · cases hlocate
          rfl
        · cases hlocate

/-- **The folder that the command finds** gives for a plain name what the tree
has at the path of the folder continued by the name. The error is the one of
the tree, with the name in front of it, and the host asks nothing else of its
surroundings. -/
theorem Application.loadFile_readFolder {name : String}
    (h : Path.isPlainName name = true) (t : FileTree) (bytes : List UInt8)
    (path : String) (side : SideOutputs) :
    (Folder.host (readFolder (t.surroundings bytes) path)).loadFile name side =
      { answer := (t.readText (Path.join path name)).mapError fun e =>
          name ++ ": " ++ e.message
        state := side } := by
  have hname : Path.fileName? (Path.join path name) = some name := by
    rw [Path.fileName?_eq_some_iff, Path.parts_join h, List.getLast?_concat]
    exact ⟨rfl, (Path.isPlainName_iff.1 h).2.2.2⟩
  let folder : Folder := readFolder (t.surroundings bytes) path
  have hread : folder.readPath (Path.join path name)
      = t.readText (Path.join path name) := by
    rw [Folder.readPath, hname]
    exact FileTree.read_listFolder h t path
  rw [← hread]
  exact OpenFolder.loadFile_of_isPlainName h folder.opened side

/-- **A script cannot leave its folder by loading files.** A text is taken for
a name if it is not empty, has no slash, and is neither `.` nor `..`; and all
that is opened in a run, whatever opening a file does, are paths of the folder
continued by such names. In no tree of files does one of them lead anywhere but
to an entry of the folder, and what the command loads by a name is what is
there in the tree. -/
theorem loads_stay_in_folder (f : OpenFolder σ) (p : Program)
    (globals : Bindings Value) (input : Value) (w : World σ) :
    (∀ name, Path.isPlainName name = true ↔
      name ≠ "" ∧ '/' ∉ name.toList ∧ name ≠ "." ∧ name ≠ "..") ∧
    (∃ opened,
      (p.run f.noting.host globals input).run (w.withPaths []) =
        (((p.run f.host globals input).run w).1,
          ((p.run f.host globals input).run w).2.withPaths opened) ∧
      ∀ path ∈ opened, ∃ name, Path.isPlainName name = true ∧
        path = Path.join f.path name ∧
        Path.parts path = Path.parts f.path ++ [name] ∧
        ∀ (t : FileTree) place node, t.locate path = .ok (place, node) →
          ∃ here, t.locate (FileTree.listed f.path) = .ok (here, .folder) ∧
            place = here ++ [name]) ∧
    ∀ (t : FileTree) bytes path name side, Path.isPlainName name = true →
      (Folder.host (Application.readFolder (t.surroundings bytes)
        path)).loadFile name side =
        { answer := (t.readText (Path.join path name)).mapError fun e =>
            name ++ ": " ++ e.message
          state := side } := by
  refine ⟨fun name => Path.isPlainName_iff, ?_,
    fun t bytes path name side hname =>
    Application.loadFile_readFolder hname t bytes path side⟩
  obtain ⟨opened, hopened, hrun⟩ := p.run_noting f globals input w
  refine ⟨opened, hrun, fun path hpath => ?_⟩
  obtain ⟨name, hname, rfl⟩ := hopened path hpath
  exact ⟨name, hname, rfl, Path.parts_join hname f.path,
    fun t place node hlocate =>
    FileTree.exists_folder_of_locate hname hlocate⟩

/-- A folder inside another, with a file in each of them. -/
def nestedTree : FileTree :=
  ⟨[(["b.txt"], .file [98]), (["nested", "c.txt"], .file [99])]⟩

/-- From the folder inside, its own file can be loaded, and the other one
not. -/
theorem loads_stay_in_folder_nested :
    let folder : Folder :=
      Application.readFolder (nestedTree.surroundings []) "nested"
    folder.host.loadFile "c.txt" [] = { answer := .ok "c", state := [] } ∧
      ¬ Path.isPlainName "../b.txt" = true := by
  obtain ⟨hplain, -, hload⟩ :=
    loads_stay_in_folder (Folder.opened ⟨"nested", .ok []⟩) ⟨[]⟩ [] .empty
      { host := [] }
  have hname : Path.isPlainName "c.txt" = true := (hplain "c.txt").2 (by decide)
  refine ⟨(hload nestedTree [] "nested" "c.txt" [] hname).trans ?_, fun h => ?_⟩
  · have htext : nestedTree.readText (Path.join "nested" "c.txt")
        = .ok "c" := by decide +kernel
    rw [htext]
    rfl
  · exact absurd ((hplain "../b.txt").1 h) (by decide)

end StreamScript

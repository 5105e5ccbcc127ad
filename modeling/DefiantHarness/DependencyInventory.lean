import DefiantHarness.RuntimeArtifacts

/-! The explicit-stack inventory of a dependency root finds its regular files, and refuses anything
else. -/
namespace DefiantHarness

open Foundation Points

namespace RuntimeArtifacts

/-- A directory, or a regular file with one link. -/
def Plain : Node → Prop
  | .directory _ => True
  | .file _ links => links = 1
  | .link => False
  | .other => False

def isFile : Node → Bool
  | .file .. => true
  | _ => false

/-- The relative texts of the files among these entries. -/
def fileTexts (entries : List (List Points × Node)) : List Points :=
  (entries.filter fun e => isFile e.2).map fun e => path e.1

@[simp] theorem fileTexts_nil : fileTexts [] = [] := rfl

theorem fileTexts_cons (e : List Points × Node) (entries : List (List Points × Node)) :
    fileTexts (e :: entries) = if isFile e.2 then path e.1 :: fileTexts entries else fileTexts entries := by
  unfold fileTexts
  split <;> simp [*]

theorem fileTexts_append (entries others : List (List Points × Node)) :
    fileTexts (entries ++ others) = fileTexts entries ++ fileTexts others := by
  simp [fileTexts]

theorem fileTexts_perm {entries others : List (List Points × Node)} (perm : entries.Perm others) :
    (fileTexts entries).Perm (fileTexts others) :=
  (perm.filter _).map _

/-! ### What is still to be visited -/

section Loop

variable {host : Host}

/-- Everything below the directories of the stack. -/
def pending (host : Host) (stack : List (List Points × List Points)) : List (List Points × Node) :=
  stack.flatMap fun d => ((host.lstat d.1).getD .other).descendants d.2

/-- Every directory of the stack is there. -/
def Stacked (host : Host) (stack : List (List Points × List Points)) : Prop :=
  ∀ d ∈ stack, ∃ entries, host.lstat d.1 = some (.directory entries)

/-- The entries visited so far and those to be visited are all the entries; what has been visited is
plain, its files are collected and it is counted. -/
def Covers (s : Inventory) (rest all : List (List Points × Node)) : Prop :=
  ∃ visited, all.Perm (visited ++ rest) ∧ (∀ e ∈ visited, Plain e.2) ∧
    s.files.Perm (fileTexts visited) ∧ s.entryCount = visited.length

/-- Below both ceilings. -/
structure Bounded (all : List (List Points × Node)) : Prop where
  entries : all.length ≤ maxDependencyEntries
  files : (fileTexts all).length ≤ maxDependencyFiles

private theorem scanEntry_ok_iff {directory relativeDir : List Points} {s s' : Inventory} {name : Points}
    {node : Node} (there : host.lstat (directory ++ [name]) = some node) :
    scanEntry host directory relativeDir s name = .ok s' ↔
      s.entryCount < maxDependencyEntries ∧
        ((∃ entries, node = .directory entries ∧ s' = ⟨s.files, s.entryCount + 1,
            (directory ++ [name], relativeDir ++ [name]) :: s.stack⟩) ∨
          ∃ content, node = .file content 1 ∧ path (relativeDir ++ [name]) ∉ s.files ∧
            s.files.length < maxDependencyFiles ∧
            s' = ⟨path (relativeDir ++ [name]) :: s.files, s.entryCount + 1, s.stack⟩) := by
  simp only [scanEntry, there, refuseIf_bind_ok_iff, not_lt, Nat.succ_le_iff]
  apply and_congr_right
  intro _
  cases node with
  | directory entries => simp [eq_comm]
  | file content links =>
    simp only [refuseIf_bind_ok_iff, pure_ok_iff, not_lt, List.length_cons, Nat.succ_le_iff, not_not]
    simp
  | link => simp
  | other => simp

/-- One entry: it leaves the entries to be visited, and what stands below it joins the stack. -/
private theorem scanEntry_covers {directory relativeDir : List Points} {s s' : Inventory}
    {name : EntryName} {node : Node} {es : List DirectoryEntry} {all : List (List Points × Node)}
    (there : host.lstat (directory ++ [name.text]) = some node) (stacked : Stacked host s.stack)
    (covers : Covers s (Node.entriesWithin relativeDir ((name, node) :: es) ++ pending host s.stack) all)
    (scanned : scanEntry host directory relativeDir s name.text = .ok s') :
    Stacked host s'.stack ∧
      Covers s' (Node.entriesWithin relativeDir es ++ pending host s'.stack) all := by
  obtain ⟨visited, perm, plain, files, count⟩ := covers
  -- a directory goes on the stack, so what is pending moves but stays the same up to order
  obtain ⟨-, ⟨entries, rfl, rfl⟩ | ⟨content, rfl, -, -, rfl⟩⟩ := (scanEntry_ok_iff there).1 scanned
  · refine ⟨List.forall_mem_cons.2 ⟨⟨entries, there⟩, stacked⟩, ?_⟩
    refine ⟨visited ++ [(relativeDir ++ [name.text], .directory entries)], ?_, ?_, ?_, ?_⟩
    · refine perm.trans ?_
      rw [Node.entriesWithin, pending, pending, List.flatMap_cons, there, Option.getD_some,
        List.append_assoc, List.singleton_append, List.cons_append]
      apply List.Perm.append_left
      apply List.Perm.cons
      rw [← List.append_assoc]
      exact List.perm_append_comm.append_right _
    · rw [List.forall_mem_append]
      exact ⟨plain, List.forall_mem_singleton.2 trivial⟩
    · rw [fileTexts_append]
      simpa [fileTexts, isFile] using files
    · simp [count]
  · refine ⟨stacked, visited ++ [(relativeDir ++ [name.text], .file content 1)], ?_, ?_, ?_, ?_⟩
    · refine perm.trans ?_
      rw [Node.entriesWithin, Node.descendants, List.nil_append, List.append_assoc,
        List.singleton_append, List.cons_append]
    · rw [List.forall_mem_append]
      exact ⟨plain, List.forall_mem_singleton.2 rfl⟩
    · rw [fileTexts_append]
      exact (files.cons _).trans (List.perm_append_singleton _ _).symm
    · simp [count]

/-- A plain entry below the ceilings is scanned. -/
private theorem scanEntry_total {directory relativeDir : List Points} {s : Inventory}
    {name : EntryName} {node : Node} {es : List DirectoryEntry} {all : List (List Points × Node)}
    (there : host.lstat (directory ++ [name.text]) = some node) (bounded : Bounded all)
    (plain : ∀ e ∈ all, Plain e.2) (distinct : (fileTexts all).Nodup)
    (covers : Covers s (Node.entriesWithin relativeDir ((name, node) :: es) ++ pending host s.stack) all) :
    ∃ s', scanEntry host directory relativeDir s name.text = .ok s' := by
  obtain ⟨visited, perm, -, files, count⟩ := covers
  rw [Node.entriesWithin, List.cons_append] at perm
  have room : s.entryCount < maxDependencyEntries := by
    have total := perm.length_eq
    have ceiling := bounded.entries
    rw [List.length_append, List.length_cons] at total
    omega
  have own : Plain node :=
    plain _ (perm.mem_iff.2 (List.mem_append_right visited List.mem_cons_self))
  cases node with
  | directory entries => exact ⟨_, (scanEntry_ok_iff there).2 ⟨room, .inl ⟨entries, rfl, rfl⟩⟩⟩
  | file content links =>
    obtain rfl := own
    have texts := fileTexts_perm perm
    rw [fileTexts_append, fileTexts_cons, isFile, if_pos rfl] at texts
    -- a text seen twice would stand twice among the texts of the whole tree
    have fresh : path (relativeDir ++ [name.text]) ∉ s.files := by
      intro inside
      have twice := (List.nodup_append.1 (texts.nodup_iff.1 distinct)).2.2
      exact twice _ (files.mem_iff.1 inside) _ List.mem_cons_self rfl
    have few : s.files.length < maxDependencyFiles := by
      have total := texts.length_eq
      have ceiling := bounded.files
      have collected := files.length_eq
      rw [List.length_append, List.length_cons] at total
      omega
    exact ⟨_, (scanEntry_ok_iff there).2 ⟨room, .inr ⟨content, rfl, fresh, few, rfl⟩⟩⟩
  | link => exact own.elim
  | other => exact own.elim

/-- A pushed directory was an entry to be visited. -/
private theorem scanEntry_turns {directory relativeDir : List Points} {s s' : Inventory}
    {name : EntryName} {node : Node} {es : List DirectoryEntry}
    (there : host.lstat (directory ++ [name.text]) = some node)
    (scanned : scanEntry host directory relativeDir s name.text = .ok s') :
    s'.stack.length + (Node.entriesWithin relativeDir es ++ pending host s'.stack).length ≤
      s.stack.length +
        (Node.entriesWithin relativeDir ((name, node) :: es) ++ pending host s.stack).length := by
  obtain ⟨-, ⟨entries, rfl, rfl⟩ | ⟨content, rfl, -, -, rfl⟩⟩ := (scanEntry_ok_iff there).1 scanned
  · simp only [Node.entriesWithin, pending, List.flatMap_cons, there, Option.getD_some,
      List.length_append, List.length_cons]
    omega
  · simp only [Node.entriesWithin, List.length_append, List.length_cons]
    omega

/-- The entries of a directory, one after the other. -/
private theorem scan_covers {directory relativeDir : List Points} {es : List DirectoryEntry}
    {s s' : Inventory} {all : List (List Points × Node)}
    (there : ∀ e ∈ es, host.lstat (directory ++ [e.1.text]) = some e.2) (stacked : Stacked host s.stack)
    (covers : Covers s (Node.entriesWithin relativeDir es ++ pending host s.stack) all)
    (scanned : (es.map (·.1.text)).foldlM (scanEntry host directory relativeDir) s = .ok s') :
    Stacked host s'.stack ∧ Covers s' (pending host s'.stack) all ∧
      s'.stack.length + (pending host s'.stack).length ≤
        s.stack.length + (Node.entriesWithin relativeDir es ++ pending host s.stack).length := by
  induction es generalizing s with
  | nil =>
    obtain rfl := pure_ok_iff.1 scanned
    exact ⟨stacked, covers, le_rfl⟩
  | cons e es ih =>
    obtain ⟨name, node⟩ := e
    rw [List.forall_mem_cons] at there
    rw [List.map_cons, List.foldlM_cons, bind_ok_iff] at scanned
    obtain ⟨middle, first, rest⟩ := scanned
    obtain ⟨stacked', covers'⟩ := scanEntry_covers there.1 stacked covers first
    obtain ⟨stacked'', covers'', turns⟩ := ih there.2 stacked' covers' rest
    exact ⟨stacked'', covers'', turns.trans (scanEntry_turns there.1 first)⟩

private theorem scan_total {directory relativeDir : List Points} {es : List DirectoryEntry}
    {s : Inventory} {all : List (List Points × Node)}
    (there : ∀ e ∈ es, host.lstat (directory ++ [e.1.text]) = some e.2) (stacked : Stacked host s.stack)
    (bounded : Bounded all) (plain : ∀ e ∈ all, Plain e.2) (distinct : (fileTexts all).Nodup)
    (covers : Covers s (Node.entriesWithin relativeDir es ++ pending host s.stack) all) :
    ∃ s', (es.map (·.1.text)).foldlM (scanEntry host directory relativeDir) s = .ok s' := by
  induction es generalizing s with
  | nil => exact ⟨s, rfl⟩
  | cons e es ih =>
    obtain ⟨name, node⟩ := e
    rw [List.forall_mem_cons] at there
    obtain ⟨middle, first⟩ := scanEntry_total there.1 bounded plain distinct covers
    obtain ⟨stacked', covers'⟩ := scanEntry_covers there.1 stacked covers first
    obtain ⟨s', rest⟩ := ih there.2 stacked' covers'
    exact ⟨s', by rw [List.map_cons, List.foldlM_cons, first, ok_bind, rest]⟩

/-- The entries of a directory are what the host has under their names. -/
theorem entries_there {directory : List Points} {entries : List DirectoryEntry}
    (found : host.lstat directory = some (.directory entries)) :
    ∀ e ∈ entries, host.lstat (directory ++ [e.1.text]) = some e.2 := by
  intro e member
  have distinct := Node.Distinct.nodeAt host.distinct found
  rw [Node.Distinct] at distinct
  rw [Host.lstat_append, found, Option.bind_some, Node.nodeAt_cons_eq_some_iff]
  exact ⟨entries, e, rfl, Node.find_entry distinct.1 member, Node.nodeAt_nil _⟩

private theorem pending_cons {directory relativeDir : List Points} {entries : List DirectoryEntry}
    {stack : List (List Points × List Points)}
    (found : host.lstat directory = some (.directory entries)) :
    pending host ((directory, relativeDir) :: stack) =
      Node.entriesWithin relativeDir entries ++ pending host stack := by
  rw [pending, List.flatMap_cons, found, Option.getD_some, Node.descendants, pending]

/-- A finished inventory has visited every entry. -/
private theorem inventoryLoop_covers {turns : Nat} {s : Inventory} {found : List Points}
    {all : List (List Points × Node)} (stacked : Stacked host s.stack)
    (covers : Covers s (pending host s.stack) all) (finished : inventoryLoop host turns s = .ok found) :
    (∀ e ∈ all, Plain e.2) ∧ found.Perm (fileTexts all) := by
  induction turns generalizing s with
  | zero => cases finished
  | succ turns ih =>
    rw [inventoryLoop] at finished
    split at finished
    next empty =>
      obtain rfl := pure_ok_iff.1 finished
      obtain ⟨visited, perm, plain, files, -⟩ := covers
      rw [empty, pending, List.flatMap_nil, List.append_nil] at perm
      exact ⟨fun e member => plain e (perm.mem_iff.1 member), files.trans (fileTexts_perm perm).symm⟩
    next directory relativeDir stack top =>
      rw [top] at stacked covers
      obtain ⟨⟨entries, there⟩, stacked⟩ := List.forall_mem_cons.1 stacked
      rw [pending_cons there] at covers
      rw [there] at finished
      obtain ⟨s', scanned, rest⟩ := bind_ok_iff.1 finished
      obtain ⟨stacked', covers', -⟩ :=
        @scan_covers host _ _ _ { s with stack } _ _ (entries_there there) stacked covers scanned
      exact ih stacked' covers' rest

/-- Enough turns finish the inventory of plain entries below the ceilings. -/
private theorem inventoryLoop_total {turns : Nat} {s : Inventory} {all : List (List Points × Node)}
    (stacked : Stacked host s.stack) (bounded : Bounded all) (plain : ∀ e ∈ all, Plain e.2)
    (distinct : (fileTexts all).Nodup) (covers : Covers s (pending host s.stack) all)
    (enough : s.stack.length + (pending host s.stack).length < turns) :
    ∃ found, inventoryLoop host turns s = .ok found := by
  induction turns generalizing s with
  | zero => omega
  | succ turns ih =>
    rw [inventoryLoop]
    split
    · exact ⟨_, rfl⟩
    next directory relativeDir stack top =>
      rw [top] at stacked covers enough
      obtain ⟨⟨entries, there⟩, stacked⟩ := List.forall_mem_cons.1 stacked
      rw [pending_cons there] at covers enough
      obtain ⟨s', scanned⟩ := @scan_total host _ _ _ { s with stack } _ (entries_there there) stacked bounded
        plain distinct covers
      obtain ⟨stacked', covers', fewer⟩ :=
        @scan_covers host _ _ _ { s with stack } _ _ (entries_there there) stacked covers scanned
      rw [there]
      dsimp only
      rw [scanned, ok_bind]
      -- the directory left the stack, and each directory pushed for it was an entry before
      exact ih stacked' covers' (by rw [List.length_cons] at enough; dsimp only at fewer; omega)

end Loop

/-! ### The whole inventory -/

section Inventory

variable {host : Host} {root : List Points} {entries : List DirectoryEntry}

/-- The names below a directory are proper. -/
theorem descendants_proper (there : host.lstat root = some (.directory entries))
    {e : List Points × Node} (member : e ∈ (Node.directory entries).descendants []) :
    ∀ name ∈ e.1, IsName name := by
  have distinct := Node.Distinct.nodeAt host.distinct there
  obtain ⟨names, -, same, below⟩ := (Node.mem_descendants_iff distinct).1 (show (e.1, e.2) ∈ _ from member)
  intro name inside
  have way : host.lstat (root ++ e.1) = some e.2 := by
    rw [same, List.nil_append, Host.lstat_append, there]
    exact below
  exact (Host.entryName_of_lstat way (List.mem_append_right root inside)).1

private theorem fileTexts_nodup (there : host.lstat root = some (.directory entries)) :
    (fileTexts ((Node.directory entries).descendants [])).Nodup := by
  have distinct := Node.Distinct.nodeAt host.distinct there
  have paths := (@Node.descendants_nodup _ [] distinct).of_map
  refine List.Nodup.map_on ?_ (paths.filter _)
  intro e first e' second same
  have names : e.1 = e'.1 := path_injective
    (descendants_proper there (List.mem_of_mem_filter first))
    (descendants_proper there (List.mem_of_mem_filter second)) same
  exact List.inj_on_of_nodup_map (Node.descendants_nodup distinct) (List.mem_of_mem_filter first)
    (List.mem_of_mem_filter second) names

private theorem start_covers (there : host.lstat root = some (.directory entries)) :
    Stacked host [(root, [])] ∧ Covers ⟨[], 0, [(root, [])]⟩ (pending host [(root, [])])
      ((Node.directory entries).descendants []) := by
  refine ⟨List.forall_mem_singleton.2 ⟨entries, there⟩, [], ?_, nofun, List.Perm.refl _, rfl⟩
  rw [pending_cons there, pending, List.flatMap_nil, List.append_nil]
  exact List.Perm.refl _

/-- The inventory below the ceilings finishes exactly where every entry is plain, and finds every
file. -/
theorem inventory_ok (there : host.lstat root = some (.directory entries)) {found : List Points}
    (finished : inventoryDependencyRoot host root = .ok found) :
    (∀ e ∈ (Node.directory entries).descendants [], Plain e.2) ∧
      found.Perm (fileTexts ((Node.directory entries).descendants [])) :=
  inventoryLoop_covers (start_covers there).1 (start_covers there).2 finished

theorem inventory_total (there : host.lstat root = some (.directory entries))
    (bounded : Bounded ((Node.directory entries).descendants []))
    (plain : ∀ e ∈ (Node.directory entries).descendants [], Plain e.2) :
    ∃ found, inventoryDependencyRoot host root = .ok found := by
  obtain ⟨stacked, covers⟩ := start_covers there
  refine inventoryLoop_total stacked bounded plain (fileTexts_nodup there) covers ?_
  rw [pending_cons there, pending, List.flatMap_nil, List.append_nil]
  have ceiling := bounded.entries
  rw [Node.descendants] at ceiling
  simp only [List.length_singleton]
  omega

end Inventory

end RuntimeArtifacts

end DefiantHarness

import RamlCheck.Proofs.Rule.Reading
import RamlCheck.Proofs.Yaml.Way

/-!
# What the messages of rules quote

The message of a finding shows some texts of the document as they are, and no quotes spell
out what is in them: keys, targets of references and the ways to what is wrong with
included files.  `Document.Quotes` lists these texts.  The other words of a message are
fixed or numbers, so a message has a line feed only if a text that it quotes has one
(`Rule.feedsFrom_of_mem_check`).

## Strategy

There is one lemma for each rule.  The rules about resources and responses quote keys from
the depth of the document: what they look at are entries inside of entries
(`Outline.HasEntry`), for resources by recursion on the outline.
-/

namespace RamlCheck

open Text (OneLine FeedsFrom oneLine_append oneLine_nat)

/-! ## Entries inside of entries -/

/-- Whether an entry is among some entries or inside of them, however deep. -/
inductive Outline.HasEntry (entries : List (Label × Outline)) : Label × Outline → Prop
  | among {entry : Label × Outline} (hentry : entry ∈ entries) : HasEntry entries entry
  | inside {outer entry : Label × Outline} (houter : HasEntry entries outer)
      (hentry : entry ∈ outer.2.entries?.getD []) : HasEntry entries entry

theorem Outline.HasEntry.trans {entries : List (Label × Outline)} {outer entry : Label × Outline}
    (houter : HasEntry entries outer) (hentry : HasEntry (outer.2.entries?.getD []) entry) :
    HasEntry entries entry := by
  induction hentry with
  | among hentry => exact .inside houter hentry
  | inside _ hentry ih => exact .inside ih hentry

theorem Outline.HasEntry.mono {entries others : List (Label × Outline)}
    (hsubset : entries ⊆ others) {entry : Label × Outline} (hentry : HasEntry entries entry) :
    HasEntry others entry := by
  induction hentry with
  | among hentry => exact .among (hsubset hentry)
  | inside _ hentry ih => exact .inside ih hentry

namespace Resource

mutual

theorem hasEntry_of_mem_within : ∀ {node : Outline} {resource : Resource},
    resource ∈ within node →
    Outline.HasEntry (node.entries?.getD []) (resource.key, resource.node)
  | .mapping _, _, hresource => by
      rw [within] at hresource
      exact hasEntry_of_mem_ofEntries hresource
  | .scalar _, _, hresource => by
      rw [within] at hresource
      contradiction
  | .sequence _, _, hresource => by
      rw [within] at hresource
      contradiction

/-- A resource among some entries is one of them or inside of them. -/
theorem hasEntry_of_mem_ofEntries : ∀ {entries : List (Label × Outline)} {resource : Resource},
    resource ∈ ofEntries entries → Outline.HasEntry entries (resource.key, resource.node)
  | [], _, hresource => by
      rw [ofEntries_nil] at hresource
      contradiction
  | (key, node) :: rest, resource, hresource => by
      have hrest : resource ∈ ofEntries rest →
          Outline.HasEntry ((key, node) :: rest) (resource.key, resource.node) :=
        fun hmem => .mono (List.subset_cons_self _ _) (hasEntry_of_mem_ofEntries hmem)
      rw [ofEntries_cons] at hresource
      split at hresource
      · rcases List.mem_append.mp hresource with hresource | hresource
        · rcases List.mem_cons.mp hresource with rfl | hresource
          · exact .among List.mem_cons_self
          · exact .trans (.among List.mem_cons_self) (hasEntry_of_mem_within hresource)
        · exact hrest hresource
      · exact hrest hresource

end

end Resource

theorem Document.hasEntry_of_mem_resources {document : Document} {resource : Resource}
    (hresource : resource ∈ document.resources) :
    Outline.HasEntry document.root (resource.key, resource.node) :=
  Resource.hasEntry_of_mem_ofEntries hresource

/-- A method is an entry of the document, and so is the resource that declares it. -/
theorem Document.hasEntry_of_mem_methods {document : Document} {method : Method}
    (hmethod : method ∈ document.methods) :
    Outline.HasEntry document.root (method.key, method.node) ∧
      ∃ node, Outline.HasEntry document.root (method.resource, node) := by
  obtain ⟨resource, hresource, hmem⟩ := List.mem_flatMap.mp hmethod
  obtain ⟨entry, hentry, rfl⟩ := List.mem_map.mp hmem
  have houter := hasEntry_of_mem_resources hresource
  exact ⟨.inside houter (List.mem_of_mem_filter hentry), resource.node, houter⟩

/-! ## Quoted texts -/

/-- The texts that the messages about a document show as they are: its keys, however deep;
why a file that it refers to cannot be read; and scalars of such files as can be. -/
inductive Document.Quotes (files : FileSystem) (document : Document) : String → Prop
  | key {entry : Label × Outline} (hentry : Outline.HasEntry document.root entry) :
      Quotes files document entry.1.text
  | unread {reference : Include} {failure : ReadFailure}
      (hreference : reference ∈ document.includes)
      (hread : files (Include.pathOf document.directory reference.target) = .error failure) :
      Quotes files document failure.message
  | included {reference : Include} {content text : String}
      (hreference : reference ∈ document.includes)
      (hread : files (Include.pathOf document.directory reference.target) = .ok content)
      (hscalar : Yaml.HasScalar (Include.valuesText content) text) :
      Quotes files document text

/-- A key of a document is quoted as it is. -/
theorem Document.feedsFrom_key (files : FileSystem) {document : Document}
    {entry : Label × Outline} (hentry : Outline.HasEntry document.root entry) :
    FeedsFrom (document.Quotes files) entry.1.text :=
  .of_quoted (.key hentry)

namespace Rule

variable {files : FileSystem} {document : Document} {finding : Finding}

theorem oneLine_of_mem_title (hfinding : finding ∈ title.check files document) :
    OneLine finding.message := by
  simp only [title, titleFindings] at hfinding
  split at hfinding
  · split at hfinding
    · rw [List.mem_singleton.mp hfinding]
      exact .of_chars (by decide)
    · contradiction
  · split at hfinding
    · rw [List.mem_singleton.mp hfinding]
      exact .of_chars (by decide)
    · contradiction

theorem oneLine_of_mem_baseUri (hfinding : finding ∈ baseUri.check files document) :
    OneLine finding.message := by
  simp only [baseUri, baseUriFindings] at hfinding
  split at hfinding
  · contradiction
  · split at hfinding
    · rw [List.mem_singleton.mp hfinding]
      exact .of_chars (by decide)
    · contradiction

theorem feedsFrom_of_mem_rootKeys (hfinding : finding ∈ rootKeys.check files document) :
    FeedsFrom (document.Quotes files) finding.message := by
  obtain ⟨entry, hentry, rfl⟩ := List.mem_map.mp hfinding
  have hkey := Document.feedsFrom_key files (.among (List.mem_of_mem_filter hentry))
  exact .append (.append (.of_chars (by decide)) hkey) (.of_chars (by decide))

theorem feedsFrom_notMapping {kind : String} (hkind : OneLine kind) {key : Label} {node : Outline}
    (hentry : Outline.HasEntry document.root (key, node)) :
    FeedsFrom (document.Quotes files) (notMapping document kind key).message :=
  .append (.append (.append (.of_oneLine hkind) (.of_chars (by decide)))
    (Document.feedsFrom_key files hentry)) (.of_chars (by decide))

theorem feedsFrom_of_mem_resourceEntryFindings {resource : Label} {node : Outline}
    (hresource : Outline.HasEntry document.root (resource, node)) {entry : Label × Outline}
    (hentry : Outline.HasEntry document.root entry)
    (hfinding : finding ∈ resourceEntryFindings document resource entry) :
    FeedsFrom (document.Quotes files) finding.message := by
  unfold resourceEntryFindings at hfinding
  simp only at hfinding
  split at hfinding
  · split at hfinding
    · contradiction
    · rw [List.mem_singleton.mp hfinding]
      exact feedsFrom_notMapping (.of_chars (by decide)) hentry
  · split at hfinding
    · contradiction
    · rw [List.mem_singleton.mp hfinding]
      have hkey := Document.feedsFrom_key files hentry
      have hplace := Document.feedsFrom_key files hresource
      exact .append (.append (.append (.append (.of_chars (by decide)) hkey)
        (.of_chars (by decide))) hplace) (.of_chars (by decide))

theorem feedsFrom_of_mem_methodFindings {method : Method} (hmethod : method ∈ document.methods)
    (hfinding : finding ∈ methodFindings document method) :
    FeedsFrom (document.Quotes files) finding.message := by
  obtain ⟨entry, hentry, rfl⟩ := List.mem_map.mp hfinding
  obtain ⟨houter, node, hresource⟩ := Document.hasEntry_of_mem_methods hmethod
  have hkey := Document.feedsFrom_key files
    (.inside houter (List.mem_of_mem_filter hentry))
  have hname := Document.feedsFrom_key files houter
  have hplace := Document.feedsFrom_key files hresource
  refine .append ?_ (.of_chars (by decide))
  refine .append (.append ?_ (.of_chars (by decide))) hplace
  exact .append (.append (.append (.of_chars (by decide)) hkey) (.of_chars (by decide))) hname

theorem feedsFrom_of_mem_resources (hfinding : finding ∈ resources.check files document) :
    FeedsFrom (document.Quotes files) finding.message := by
  rcases List.mem_append.mp hfinding with hfinding | hfinding
  · obtain ⟨resource, hresource, hmem⟩ := List.mem_flatMap.mp hfinding
    have houter := Document.hasEntry_of_mem_resources hresource
    unfold resourceFindings at hmem
    split at hmem
    · obtain ⟨entry, hentry, hmem⟩ := List.mem_flatMap.mp hmem
      exact feedsFrom_of_mem_resourceEntryFindings houter (.inside houter hentry) hmem
    · rw [List.mem_singleton.mp hmem]
      exact feedsFrom_notMapping (.of_chars (by decide)) houter
  · obtain ⟨method, hmethod, hmem⟩ := List.mem_flatMap.mp hfinding
    exact feedsFrom_of_mem_methodFindings hmethod hmem

theorem feedsFrom_of_mem_codeFindings {entry : Label × Outline}
    (hentry : Outline.HasEntry document.root entry)
    (hfinding : finding ∈ codeFindings document entry.1) :
    FeedsFrom (document.Quotes files) finding.message := by
  unfold codeFindings at hfinding
  split at hfinding
  · contradiction
  · rw [List.mem_singleton.mp hfinding]
    exact .append (.append (.of_chars (by decide)) (Document.feedsFrom_key files hentry))
      (.of_chars (by decide))

theorem feedsFrom_of_mem_responses (hfinding : finding ∈ responses.check files document) :
    FeedsFrom (document.Quotes files) finding.message := by
  obtain ⟨method, hmethod, hmem⟩ := List.mem_flatMap.mp hfinding
  have houter := (Document.hasEntry_of_mem_methods hmethod).1
  unfold responseFindings at hmem
  split at hmem
  · contradiction
  · next key node hresponses =>
    -- the key is one of the document, so what quotes it quotes the document
    have hentry : Outline.HasEntry document.root (key, node) :=
      .inside houter (List.mem_of_find?_eq_some hresponses)
    split at hmem
    · next entries hentries =>
      obtain ⟨code, hcode, hmem⟩ := List.mem_flatMap.mp hmem
      refine feedsFrom_of_mem_codeFindings (.inside hentry ?_) hmem
      rw [hentries]
      exact hcode
    · split at hmem
      · contradiction
      · rw [List.mem_singleton.mp hmem]
        exact .of_chars (by decide)

/-! ## Included files -/

theorem oneLine_of_json (error : Json.Error) : OneLine error.message := by
  have hcause : OneLine error.cause.message := by
    cases error.cause <;> exact .of_chars (by decide)
  simp only [Json.Error.message, oneLine_append, oneLine_nat, and_true]
  exact ⟨⟨hcause, .of_chars (by decide)⟩, .of_chars (by decide)⟩

/-- What is wrong with an included file is told with scalars of this file. -/
theorem feedsFrom_of_contentFault? {target content message : String} {line column : Nat}
    (hfault : contentFault? target content = some (line, column, message)) :
    FeedsFrom (Yaml.HasScalar (Include.valuesText content)) message := by
  unfold contentFault? at hfault
  split at hfault
  · split at hfault
    · simp at hfault
    · next error hread =>
      -- where the problem is does not matter for its words
      generalize error.position?.getD (1, 1) = place at hfault
      obtain ⟨-, hrest⟩ := Prod.mk.inj (Option.some.inj hfault)
      rw [← (Prod.mk.inj hrest).2]
      exact Yaml.feedsFrom_of_read hread
  · split at hfault
    · split at hfault
      · simp at hfault
      · next error _ =>
        obtain ⟨-, hrest⟩ := Prod.mk.inj (Option.some.inj hfault)
        rw [← (Prod.mk.inj hrest).2]
        exact .of_oneLine (oneLine_of_json error)
    · simp at hfault

theorem feedsFrom_of_includeFinding? {reference : Include}
    (hreference : reference ∈ document.includes) (htarget : OneLine reference.target)
    (hfinding : includeFinding? files document reference = some finding) :
    FeedsFrom (document.Quotes files) finding.message := by
  unfold includeFinding? at hfinding
  split at hfinding
  · next failure hread =>
    rw [← Option.some.inj hfinding]
    refine .append (.append (.append (.of_chars (by decide)) (.of_oneLine htarget)) ?_) ?_
    · exact .of_chars (by decide)
    · exact .of_quoted (.unread hreference hread)
  · next content hread =>
    obtain ⟨⟨line, column, message⟩, hfault, rfl⟩ := Option.map_eq_some_iff.mp hfinding
    exact (feedsFrom_of_contentFault? hfault).mono fun _ => .included hreference hread

/-- The line feeds in what the rules that come with the checker say about a document are
those of texts that are quoted. -/
theorem feedsFrom_of_mem_check
    (htargets : ∀ reference ∈ document.includes, OneLine reference.target) {rule : Rule}
    (hrule : rule ∈ Registry.builtin.rules) (hfinding : finding ∈ rule.check files document) :
    FeedsFrom (document.Quotes files) finding.message := by
  simp only [Registry.rules_builtin, List.mem_cons, List.not_mem_nil, or_false] at hrule
  rcases hrule with rfl | rfl | rfl | rfl | rfl | rfl
  · exact .of_oneLine (oneLine_of_mem_title hfinding)
  · exact feedsFrom_of_mem_rootKeys hfinding
  · exact .of_oneLine (oneLine_of_mem_baseUri hfinding)
  · exact feedsFrom_of_mem_resources hfinding
  · exact feedsFrom_of_mem_responses hfinding
  · obtain ⟨reference, hreference, hsome⟩ := List.mem_filterMap.mp hfinding
    exact feedsFrom_of_includeFinding? hreference (htargets reference hreference) hsome

end Rule

end RamlCheck

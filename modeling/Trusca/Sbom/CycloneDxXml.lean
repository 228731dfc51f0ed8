import Trusca.Data.Xml
import Trusca.Sbom.CycloneDx

/-! The XML form of a CycloneDX document: how it is written, and how it is read back. -/

namespace Trusca

/-- The names of elements and attributes that the form uses. -/
inductive CdxName where
  | bom | serialNumber | metadata | timestamp | tools | tool | vendor | name | version | component
  | type | bomRef | properties | property | components | group | description | licenses | license | id
  | purl | dependencies | dependency | ref | compositions | composition | aggregate | assemblies
  | assembly | vulnerabilities | vulnerability | source | analysis | state | detail | affects | target
  deriving Repr, DecidableEq

/-- A name as it is written. -/
def CdxName.word : CdxName → String
  -- The names as the schema spells them.
  | .bom => "bom"
  | .serialNumber => "serialNumber"
  | .metadata => "metadata"
  | .timestamp => "timestamp"
  | .tools => "tools"
  | .tool => "tool"
  | .vendor => "vendor"
  | .name => "name"
  | .version => "version"
  | .component => "component"
  | .type => "type"
  | .bomRef => "bom-ref"
  | .properties => "properties"
  | .property => "property"
  | .components => "components"
  | .group => "group"
  | .description => "description"
  | .licenses => "licenses"
  | .license => "license"
  | .id => "id"
  | .purl => "purl"
  | .dependencies => "dependencies"
  | .dependency => "dependency"
  | .ref => "ref"
  | .compositions => "compositions"
  | .composition => "composition"
  | .aggregate => "aggregate"
  | .assemblies => "assemblies"
  | .assembly => "assembly"
  | .vulnerabilities => "vulnerabilities"
  | .vulnerability => "vulnerability"
  | .source => "source"
  | .analysis => "analysis"
  | .state => "state"
  | .detail => "detail"
  | .affects => "affects"
  | .target => "target"

/-- Every name is one that XML admits. -/
theorem CdxName.isXmlName_word (label : CdxName) : isXmlName label.word := by
  cases label <;> decide +kernel

/-- An element of the form. -/
abbrev CdxNode := XmlNode CdxName

open XmlNode

section Write

def CdxProperty.toXml (property : CdxProperty) : CdxNode :=
  .element .property [(.name, property.name)] property.value []

def CdxLicense.toXml : CdxLicense → CdxNode
  | .id text => branch .license [leaf .id text]
  | .name text => branch .license [leaf .name text]

/-- An element that only refers to another. -/
def refElement (tag : CdxName) (ref : String) : CdxNode := .element tag [(.ref, ref)] "" []

def CdxMetadata.toXml (metadata : CdxMetadata) : CdxNode :=
  branch .metadata
    -- Children in the order of the schema.
    ([leaf CdxName.timestamp metadata.timestamp,
      branch .tools [branch .tool
        [leaf CdxName.vendor metadata.toolVendor, leaf .name metadata.toolName,
          leaf .version metadata.toolVersion]],
      .element .component [(.type, metadata.component.type), (.bomRef, metadata.component.bomRef)] ""
        [leaf CdxName.name metadata.component.name, leaf .version metadata.component.version]] ++
      unlessEmpty CdxName.properties (metadata.properties.map CdxProperty.toXml))

/-- The element of a component with a version. -/
def CdxComponent.toXmlWith (comp : CdxComponent) (version : String) : CdxNode :=
  .element .component [(.type, comp.type), (.bomRef, comp.bomRef)] ""
    -- An absent field gives no element at all.
    (optional CdxName.group comp.group ++ [leaf CdxName.name comp.name, leaf .version version] ++
      optional CdxName.description comp.description ++
      unlessEmpty CdxName.licenses (comp.licenses.map CdxLicense.toXml) ++
        optional CdxName.purl comp.purl ++
      unlessEmpty CdxName.properties (comp.properties.map CdxProperty.toXml))

/-- The element of a component; the version is read without asking whether there is one. -/
def CdxComponent.toXml (comp : CdxComponent) : Option CdxNode := comp.version.map comp.toXmlWith

def CdxDependency.toXml (entry : CdxDependency) : CdxNode :=
  .element .dependency [(.ref, entry.ref)] "" (entry.dependsOn.map (refElement .dependency))

def CdxComposition.toXml (composition : CdxComposition) : CdxNode :=
  branch .composition
    -- `aggregate` comes first, as the schema's sequence requires.
    (leaf .aggregate composition.aggregate ::
      ((composition.assemblies.map fun refs =>
          branch .assemblies (refs.map (refElement .assembly))).toList ++
        (composition.dependencies.map fun refs =>
          branch .dependencies (refs.map (refElement .dependency))).toList))

def CdxVulnerability.toXml (vuln : CdxVulnerability) : CdxNode :=
  branch .vulnerability
    -- The detail is the one child that may be missing.
    [leaf .id vuln.id,
      branch .source [leaf .name vuln.sourceName],
      branch .analysis (leaf .state vuln.state :: optional .detail vuln.detail),
      branch .affects (vuln.affects.map fun ref => branch .target [leaf .ref ref])]

/-- The root around the components that are already written. -/
def CdxDoc.toXmlWith (doc : CdxDoc) (components : List CdxNode) : CdxNode :=
  .element .bom [(.version, toString doc.version), (.serialNumber, doc.serialNumber)] ""
    -- `components` and `vulnerabilities` stand there even when they are empty.
    ([doc.metadata.toXml, branch CdxName.components components] ++
      (doc.dependencies.map fun entries =>
        branch CdxName.dependencies (entries.map CdxDependency.toXml)).toList ++
      (doc.compositions.map fun entries =>
        branch CdxName.compositions (entries.map CdxComposition.toXml)).toList ++
      [branch CdxName.vulnerabilities (doc.vulnerabilities.map CdxVulnerability.toXml)])

/-- The XML form of a document; none when a field is read that a component lacks. -/
def serializeCyclonedxXml (doc : CdxDoc) : Option CdxNode :=
  (doc.components.mapM CdxComponent.toXml).map doc.toXmlWith

end Write

/-- What both forms carry of a scan. -/
structure CdxBody where
  components : List CdxComponent
  dependencies : Option (List CdxDependency)
  compositions : Option (List CdxComposition)
  vulnerabilities : List CdxVulnerability
  deriving Repr, DecidableEq

/-- What the JSON form carries of a scan. -/
def CdxDoc.body (doc : CdxDoc) : CdxBody :=
  ⟨doc.components, doc.dependencies, doc.compositions, doc.vulnerabilities⟩

section Read

def readProperty (node : CdxNode) : Option CdxProperty :=
  (node.attribute? .name).map fun name => ⟨name, node.text⟩

def readLicense (node : CdxNode) : Option CdxLicense :=
  ((node.childText? .id).map .id).or ((node.childText? .name).map .name)

def readComponent (node : CdxNode) : Option CdxComponent := do
  -- Required attributes and children first: without one of them it is no component.
  let type ← node.attribute? .type
  let bomRef ← node.attribute? .bomRef
  let name ← node.childText? .name
  let licenses ← node.readChildren .licenses readLicense
  let properties ← node.readChildren .properties readProperty
  return {
    bomRef, type, name, licenses, properties
    version := node.childText? .version
    group := node.childText? .group
    description := node.childText? .description
    purl := node.childText? .purl }

def readRef (node : CdxNode) : Option String := node.attribute? .ref

def readDependency (node : CdxNode) : Option CdxDependency := do
  let ref ← readRef node
  let dependsOn ← node.children.mapM readRef
  return ⟨ref, dependsOn⟩

/-- The children of an element, when it is there. -/
def readSection {α : Type} (node : CdxNode) (tag : CdxName) (read : CdxNode → Option α) :
    Option (Option (List α)) :=
  match node.child? tag with
  | none => some none
  | some found => (found.children.mapM read).map some

def readComposition (node : CdxNode) : Option CdxComposition := do
  let aggregate ← node.childText? .aggregate
  let assemblies ← readSection node .assemblies readRef
  let dependencies ← readSection node .dependencies readRef
  return ⟨aggregate, assemblies, dependencies⟩

def readVulnerability (node : CdxNode) : Option CdxVulnerability := do
  -- The three levels that the serializer nests are opened one by one.
  let id ← node.childText? .id
  let source ← node.child? .source
  let sourceName ← source.childText? .name
  let analysis ← node.child? .analysis
  let state ← analysis.childText? .state
  let affects ← node.readChildren .affects fun target => target.childText? .ref
  return ⟨id, sourceName, state, analysis.childText? .detail, affects⟩

/-- What the XML form carries of a scan. -/
def readCyclonedxXml (root : CdxNode) : Option CdxBody := do
  -- The two sections that the export may leave out are read as sections, the others as lists.
  let components ← root.readChildren .components readComponent
  let dependencies ← readSection root .dependencies readDependency
  let compositions ← readSection root .compositions readComposition
  let vulnerabilities ← root.readChildren .vulnerabilities readVulnerability
  return ⟨components, dependencies, compositions, vulnerabilities⟩

end Read

section LineEnds

def CdxProperty.normalised (property : CdxProperty) : CdxProperty :=
  { property with value := normalizeLineEnds property.value }

def CdxLicense.normalised : CdxLicense → CdxLicense
  | .id text => .id (normalizeLineEnds text)
  | .name text => .name (normalizeLineEnds text)

def CdxComponent.normalised (comp : CdxComponent) : CdxComponent :=
  -- A reader of XML sees every line end as a newline, in each text of the component.
  { comp with
    name := normalizeLineEnds comp.name
    version := comp.version.map normalizeLineEnds
    group := comp.group.map normalizeLineEnds
    description := comp.description.map normalizeLineEnds
    licenses := comp.licenses.map CdxLicense.normalised
    purl := comp.purl.map normalizeLineEnds
    properties := comp.properties.map CdxProperty.normalised }

def CdxComposition.normalised (composition : CdxComposition) : CdxComposition :=
  { composition with aggregate := normalizeLineEnds composition.aggregate }

def CdxVulnerability.normalised (vuln : CdxVulnerability) : CdxVulnerability where
  id := normalizeLineEnds vuln.id
  sourceName := normalizeLineEnds vuln.sourceName
  state := normalizeLineEnds vuln.state
  detail := vuln.detail.map normalizeLineEnds
  affects := vuln.affects.map normalizeLineEnds

/-- The same, with the line ends that an XML parser reads; what stands in attributes is exact. -/
def CdxBody.normalised (body : CdxBody) : CdxBody where
  components := body.components.map CdxComponent.normalised
  dependencies := body.dependencies
  compositions := body.compositions.map fun entries => entries.map CdxComposition.normalised
  vulnerabilities := body.vulnerabilities.map CdxVulnerability.normalised

end LineEnds

end Trusca

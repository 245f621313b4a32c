import ShaderCache.Program.ShaderModel
import ShaderCache.Text.Utf8

/-!
# Devices and targets

The graphics interfaces programs run on, and the code formats they are compiled to.
-/

set_option autoImplicit false

namespace ShaderCache

inductive Target where
  | dxil
  | spirv
  | wgsl
  deriving DecidableEq

namespace Target

def name : Target → String
  | .dxil => "DXIL"
  | .spirv => "SPIR-V"
  | .wgsl => "WGSL"

end Target

inductive DeviceType where
  | d3d12
  | vulkan
  | webGpu
  deriving DecidableEq, Inhabited

namespace DeviceType

def all : List DeviceType := [.d3d12, .vulkan, .webGpu]

def identifier : DeviceType → String
  | .d3d12 => "D3D12"
  | .vulkan => "Vulkan"
  | .webGpu => "WebGpu"

def ofIdentifier? (identifier : String) : Option DeviceType :=
  all.find? fun type => type.identifier = identifier

def target : DeviceType → Target
  | .d3d12 => .dxil
  | .vulkan => .spirv
  | .webGpu => .wgsl

/-- The macro that announces the interface to shader code. -/
def macroName : DeviceType → String
  | .d3d12 => "PRISM_D3D12"
  | .vulkan => "PRISM_VULKAN"
  | .webGpu => "PRISM_WEBGPU"

end DeviceType

structure Device where
  type : DeviceType
  /-- The shader model of programs for which nothing else names one. -/
  defaultModel : ShaderModel := .sm66
  deriving DecidableEq, Inhabited

inductive ProgramCode where
  | text (code : String)
  | binary (code : List UInt8)
  deriving DecidableEq

namespace ProgramCode

def isText : ProgramCode → Bool
  | .text _ => true
  | .binary _ => false

def isBinary (code : ProgramCode) : Bool :=
  !code.isText

def text? : ProgramCode → Option String
  | .text code => some code
  | .binary _ => none

def bytes : ProgramCode → List UInt8
  | .text code => Text.utf8 code
  | .binary code => code

/-- Only WGSL is text. -/
def fits (code : ProgramCode) : Target → Bool
  | .wgsl => code.isText
  | .spirv | .dxil => code.isBinary

end ProgramCode

end ShaderCache

import ImagePipeline.Text.Blank
import ImagePipeline.Text.Pieces

/-! The base images that a Dockerfile can start from. -/
namespace ImagePipeline

inductive BaseImage where
  | ubuntu2404
  | ubuntu2204
  | alpine320
  deriving DecidableEq, Repr

namespace BaseImage

def all : List BaseImage := [ubuntu2404, ubuntu2204, alpine320]

def name : BaseImage → String
  | ubuntu2404 => "ubuntu-24.04"
  | ubuntu2204 => "ubuntu-22.04"
  | alpine320 => "alpine-3.20"

/-- The image that a generated Dockerfile starts from. -/
def image : BaseImage → String
  | ubuntu2404 => "ubuntu:24.04"
  | ubuntu2204 => "ubuntu:22.04"
  | alpine320 => "alpine:3.20"

def isUbuntu : BaseImage → Bool
  | ubuntu2404 | ubuntu2204 => true
  | alpine320 => false

def isAlpine (b : BaseImage) : Bool := !b.isUbuntu

/-- The base image with this name, which blanks may surround. -/
def ofName? (s : String) : Option BaseImage :=
  all.find? fun b => b.name == Text.trimmed s

end BaseImage

end ImagePipeline

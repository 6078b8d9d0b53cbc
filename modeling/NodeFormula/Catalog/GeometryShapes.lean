import NodeFormula.Catalog.Basic

/-!
# Sockets of the geometry nodes

Every node with its input and output sockets, by name and data type.
-/

namespace NodeFormula.Catalog

def geometryShapesAccumulateToImage : List (String × NodeShape) := stemmed "GeometryNode"
  [("AccumulateField", [vec3 "value", float "value", int "value", int "group_index"],
      [vec3 "leading", float "leading", int "leading", vec3 "trailing", float "trailing",
      int "trailing", vec3 "total", float "total", int "total"]),
   ("AttributeDomainSize", [geometries], [int "point_count", int "edge_count", int "face_count",
      int "face_corner_count", int "spline_count", int "instance_count"]),
   ("AttributeStatistic", [geometries, selection, float "attribute", vec3 "attribute"],
      [float "mean", float "median", float "sum", float "min", float "max", float "range",
      float "standard_deviation", float "variance", vec3 "mean", vec3 "median", vec3 "sum",
      vec3 "min", vec3 "max", vec3 "range", vec3 "standard_deviation", vec3 "variance"]),
   ("BlurAttribute", [float "value", int "value", vec3 "value", rgba "value", int "iterations",
      float "weight"], [float "value", int "value", vec3 "value", rgba "value"]),
   ("BoundBox", [geometries], [geometry "bounding_box", vec3 "min", vec3 "max"]),
   ("CaptureAttribute", [geometries, vec3 "value", float "value", rgba "value", bool "value",
      int "value"], geometries :: attributes),
   ("CollectionInfo", [("collection", .collection), bool "separate_children",
      bool "reset_children"], [geometry "instances"]),
   ("ConvexHull", [geometries], [geometry "convex_hull"]),
   ("CornersOfFace", [int "face_index", float "weights", int "sort_index"], [int "corner_index",
      int "total"]),
   ("CornersOfVertex", [int "vertex_index", float "weights", int "sort_index"], [int "corner_index",
      int "total"]),
   ("CurveArc", [int "resolution", vec3 "start", vec3 "middle", vec3 "end", float "radius",
      float "start_angle", float "sweep_angle", float "offset_angle", bool "connect_center",
      bool "invert_arc"], [curve, vec3 "center", vec3 "normal", float "radius"]),
   ("CurveEndpointSelection", [int "start_size", int "end_size"], [selection]),
   ("CurveHandleTypeSelection", [], [selection]),
   ("CurveLength", [curve], [float "length"]),
   ("CurveOfPoint", [int "point_index"], [int "curve_index", int "index_in_curve"]),
   ("CurvePrimitiveBezierSegment", [int "resolution", vec3 "start", vec3 "start_handle",
      vec3 "end_handle", vec3 "end"], [curve]),
   ("CurvePrimitiveCircle", [int "resolution", vec3 "point_1", vec3 "point_2", vec3 "point_3",
      float "radius"], [curve, vec3 "center"]),
   ("CurvePrimitiveLine", [vec3 "start", vec3 "end", vec3 "direction", float "length"], [curve]),
   ("CurvePrimitiveQuadrilateral", [float "width", float "height", float "bottom_width",
      float "top_width", float "offset", float "bottom_height", float "top_height", vec3 "point_1",
      vec3 "point_2", vec3 "point_3", vec3 "point_4"], [curve]),
   ("CurveQuadraticBezier", [int "resolution", vec3 "start", vec3 "middle", vec3 "end"], [curve]),
   ("CurveSetHandles", [curve, selection], [curve]),
   ("CurveSpiral", [int "resolution", float "rotations", float "start_radius", float "end_radius",
      float "height", bool "reverse"], [curve]),
   ("CurveSplineType", [curve, selection], [curve]),
   ("CurveStar", [int "points", float "inner_radius", float "outer_radius", float "twist"], [curve,
      bool "outer_points"]),
   ("CurveToMesh", [curve, geometry "profile_curve", bool "fill_caps"], [mesh]),
   ("CurveToPoints", [curve, int "count", float "length"], [geometry "points", vec3 "tangent",
      vec3 "normal", vec3 "rotation"]),
   ("DeformCurvesOnSurface", [geometry "curves"], [geometry "curves"]),
   ("DeleteGeometry", [geometries, selection], [geometries]),
   ("DistributePointsInVolume", [geometry "volume", float "density", int "seed", vec3 "spacing",
      float "threshold"], [geometry "points"]),
   ("DistributePointsOnFaces", [mesh, selection, float "distance_min", float "density_max",
      float "density", float "density_factor", int "seed"], [geometry "points", vec3 "normal",
      vec3 "rotation"]),
   ("DualMesh", [mesh, bool "keep_boundaries"], [geometry "dual_mesh"]),
   ("DuplicateElements", [geometries, selection, int "amount"], [geometries,
      int "duplicate_index"]),
   ("EdgePathsToCurves", [mesh, bool "start_vertices", int "next_vertex_index"],
      [geometry "curves"]),
   ("EdgePathsToSelection", [bool "start_vertices", int "next_vertex_index"], [selection]),
   ("EdgesOfCorner", [int "corner_index"], [int "next_edge_index", int "previous_edge_index"]),
   ("EdgesOfVertex", [int "vertex_index", float "weights", int "sort_index"], [int "edge_index",
      int "total"]),
   ("ExtrudeMesh", [mesh, selection, vec3 "offset", float "offset_scale", bool "individual"], [mesh,
      bool "top", bool "side"]),
   ("FaceOfCorner", [int "corner_index"], [int "face_index", int "index_in_face"]),
   ("FieldAtIndex", int "index" :: values, values),
   ("FieldOnDomain", values, values),
   ("FillCurve", [curve], [mesh]),
   ("FilletCurve", [curve, int "count", float "radius", bool "limit_radius"], [curve]),
   ("FlipFaces", [mesh, selection], [mesh]),
   ("GeometryToInstance", [geometries], [geometry "instances"]),
   ("ImageInfo", [("image", .image), int "frame"], [int "width", int "height", bool "has_alpha",
      int "frame_count", float "fps"]),
   ("ImageTexture", [("image", .image), vec3 "vector", int "frame"], [color, float "alpha"])]

def geometryShapesInputToReverse : List (String × NodeShape) := stemmed "GeometryNode"
  [("InputCurveHandlePositions", [bool "relative"], [vec3 "left", vec3 "right"]),
   ("InputCurveTilt", [], [float "tilt"]),
   ("InputID", [], [int "id"]),
   ("InputImage", [], [("image", .image)]),
   ("InputIndex", [], [int "index"]),
   ("InputInstanceRotation", [], [vec3 "rotation"]),
   ("InputInstanceScale", [], [vec3 "scale"]),
   ("InputMaterial", [], [("material", .material)]),
   ("InputMaterialIndex", [], [int "material_index"]),
   ("InputMeshEdgeAngle", [], [float "unsigned_angle", float "signed_angle"]),
   ("InputMeshEdgeNeighbors", [], [int "face_count"]),
   ("InputMeshEdgeVertices", [], [int "vertex_index_1", int "vertex_index_2", vec3 "position_1",
      vec3 "position_2"]),
   ("InputMeshFaceArea", [], [float "area"]),
   ("InputMeshFaceIsPlanar", [float "threshold"], [bool "planar"]),
   ("InputMeshFaceNeighbors", [], [int "vertex_count", int "face_count"]),
   ("InputMeshIsland", [], [int "island_index", int "island_count"]),
   ("InputMeshVertexNeighbors", [], [int "vertex_count", int "face_count"]),
   ("InputNamedAttribute", [string "name"], attributes ++ [bool "exists"]),
   ("InputNormal", [], [vec3 "normal"]),
   ("InputPosition", [], [vec3 "position"]),
   ("InputRadius", [], [float "radius"]),
   ("InputSceneTime", [], [float "seconds", float "frame"]),
   ("InputShadeSmooth", [], [bool "smooth"]),
   ("InputShortestEdgePaths", [bool "end_vertex", float "edge_cost"], [int "next_vertex_index",
      float "total_cost"]),
   ("InputSplineCyclic", [], [bool "cyclic"]),
   ("InputSplineResolution", [], [int "resolution"]),
   ("InputTangent", [], [vec3 "tangent"]),
   ("InstanceOnPoints", [geometry "points", selection, geometry "instance", bool "pick_instance",
      int "instance_index", vec3 "rotation", vec3 "scale"], [geometry "instances"]),
   ("InstancesToPoints", [geometry "instances", selection, vec3 "position", float "radius"],
      [geometry "points"]),
   ("IsViewport", [], [bool "is_viewport"]),
   ("JoinGeometry", [geometries], [geometries]),
   ("MaterialSelection", [("material", .material)], [selection]),
   ("MergeByDistance", [geometries, selection, float "distance"], [geometries]),
   ("MeshBoolean", [geometry "mesh_1", geometry "mesh_2", bool "self_intersection",
      bool "hole_tolerant"], [mesh, bool "intersecting_edges"]),
   ("MeshCircle", [int "vertices", float "radius"], [mesh]),
   ("MeshCone", [int "vertices", int "side_segments", int "fill_segments", float "radius_top",
      float "radius_bottom", float "depth"], [mesh, bool "top", bool "bottom", bool "side",
      vec3 "uv_map"]),
   ("MeshCube", [vec3 "size", int "vertices_x", int "vertices_y", int "vertices_z"], [mesh,
      vec3 "uv_map"]),
   ("MeshCylinder", [int "vertices", int "side_segments", int "fill_segments", float "radius",
      float "depth"], [mesh, bool "top", bool "side", bool "bottom", vec3 "uv_map"]),
   ("MeshFaceSetBoundaries", [int "face_set"], [bool "boundary_edges"]),
   ("MeshGrid", [float "size_x", float "size_y", int "vertices_x", int "vertices_y"], [mesh,
      vec3 "uv_map"]),
   ("MeshIcoSphere", [float "radius", int "subdivisions"], [mesh, vec3 "uv_map"]),
   ("MeshLine", [int "count", float "resolution", vec3 "start_location", vec3 "offset"], [mesh]),
   ("MeshToCurve", [mesh, selection], [curve]),
   ("MeshToPoints", [mesh, selection, vec3 "position", float "radius"], [geometry "points"]),
   ("MeshToVolume", [mesh, float "density", float "voxel_size", float "voxel_amount",
      float "exterior_band_width", float "interior_band_width", bool "fill_volume"],
      [geometry "volume"]),
   ("MeshUVSphere", [int "segments", int "rings", float "radius"], [mesh, vec3 "uv_map"]),
   ("ObjectInfo", [("object", .object), bool "as_instance"], [vec3 "location", vec3 "rotation",
      vec3 "scale", geometries]),
   ("OffsetCornerInFace", [int "corner_index", int "offset"], [int "corner_index"]),
   ("OffsetPointInCurve", [int "point_index", int "offset"], [bool "is_valid_offset",
      int "point_index"]),
   ("Points", [int "count", vec3 "position", float "radius"], [geometries]),
   ("PointsOfCurve", [int "curve_index", float "weights", int "sort_index"], [int "point_index",
      int "total"]),
   ("PointsToVertices", [geometry "points", selection], [mesh]),
   ("PointsToVolume", [geometry "points", float "density", float "voxel_size", float "voxel_amount",
      float "radius"], [geometry "volume"]),
   ("Proximity", [geometry "target", vec3 "source_position"], [vec3 "position", float "distance"]),
   ("Raycast", geometry "target_geometry" :: attributes ++ [vec3 "source_position",
      vec3 "ray_direction", float "ray_length"], [bool "is_hit", vec3 "hit_position",
      vec3 "hit_normal", float "hit_distance"] ++ attributes),
   ("RealizeInstances", [geometries], [geometries]),
   ("RemoveAttribute", [geometries, string "name"], [geometries]),
   ("ReplaceMaterial", [geometries, ("old", .material), ("new", .material)], [geometries]),
   ("ResampleCurve", [curve, selection, int "count", float "length"], [curve]),
   ("ReverseCurve", [curve, selection], [curve])]

def geometryShapesRotateToVolume : List (String × NodeShape) := stemmed "GeometryNode"
  [("RotateInstances", [geometry "instances", selection, vec3 "rotation", vec3 "pivot_point",
      bool "local_space"], [geometry "instances"]),
   ("SampleCurve", geometry "curves" :: values ++ [float "factor", float "length",
      int "curve_index"], values ++ [vec3 "position", vec3 "tangent", vec3 "normal"]),
   ("SampleIndex", geometries :: values ++ [int "index"], values),
   ("SampleNearest", [geometries, vec3 "sample_position"], [int "index"]),
   ("SampleNearestSurface", mesh :: values ++ [vec3 "sample_position"], values),
   ("SampleUVSurface", mesh :: values ++ [vec3 "source_uv_map", vec3 "sample_uv"], values ++
      [bool "is_valid"]),
   ("ScaleElements", [geometries, selection, float "scale", vec3 "center", vec3 "axis"],
      [geometries]),
   ("ScaleInstances", [geometry "instances", selection, vec3 "scale", vec3 "center",
      bool "local_space"], [geometry "instances"]),
   ("SelfObject", [], [("self_object", .object)]),
   ("SeparateComponents", [geometries], [mesh, geometry "point_cloud", curve, geometry "volume",
      geometry "instances"]),
   ("SeparateGeometry", [geometries, selection], [geometry "selection", geometry "inverted"]),
   ("SetCurveHandlePositions", [curve, selection, vec3 "position", vec3 "offset"], [curve]),
   ("SetCurveNormal", [curve, selection], [curve]),
   ("SetCurveRadius", [curve, selection, float "radius"], [curve]),
   ("SetCurveTilt", [curve, selection, float "tilt"], [curve]),
   ("SetID", [geometries, selection, int "id"], [geometries]),
   ("SetMaterial", [geometries, selection, ("material", .material)], [geometries]),
   ("SetMaterialIndex", [geometries, selection, int "material_index"], [geometries]),
   ("SetPointRadius", [geometry "points", selection, float "radius"], [geometry "points"]),
   ("SetPosition", [geometries, selection, vec3 "position", vec3 "offset"], [geometries]),
   ("SetShadeSmooth", [geometries, selection, bool "shade_smooth"], [geometries]),
   ("SetSplineCyclic", [geometries, selection, bool "cyclic"], [geometries]),
   ("SetSplineResolution", [geometries, selection, int "resolution"], [geometries]),
   ("SplineLength", [], [float "length", int "point_count"]),
   ("SplineParameter", [], [float "factor", float "length", int "index"]),
   ("SplitEdges", [mesh, selection], [mesh]),
   ("StoreNamedAttribute", [geometries, string "name", vec3 "value", float "value", rgba "value",
      bool "value", int "value"], [geometries]),
   ("StringJoin", [string "delimiter", string "strings"], [string "string"]),
   ("StringToCurves", [string "string", float "size", float "character_spacing",
      float "word_spacing", float "line_spacing", float "text_box_width", float "text_box_height"],
      [geometry "curve_instances", string "remainder", int "line", vec3 "pivot_point"]),
   ("SubdivideCurve", [curve, int "cuts"], [curve]),
   ("SubdivideMesh", [mesh, int "level"], [mesh]),
   ("SubdivisionSurface", [mesh, int "level", float "edge_crease", float "vertex_crease"], [mesh]),
   ("Switch", [bool "switch", bool "switch", float "false", float "true", int "false", int "true",
      bool "false", bool "true", vec3 "false", vec3 "true", rgba "false", rgba "true",
      string "false", string "true", geometry "false", geometry "true", ("false", .object), ("true",
      .object), ("false", .collection), ("true", .collection), ("false", .texture), ("true",
      .texture), ("false", .material), ("true", .material), ("false", .image), ("true", .image)],
      [float "output", int "output", bool "output", vec3 "output", rgba "output", string "output",
      geometry "output", ("output", .object), ("output", .collection), ("output", .texture),
      ("output", .material), ("output", .image)]),
   ("Transform", [geometries, vec3 "translation", vec3 "rotation", vec3 "scale"], [geometries]),
   ("TranslateInstances", [geometry "instances", selection, vec3 "translation", bool "local_space"],
      [geometry "instances"]),
   ("Triangulate", [mesh, selection, int "minimum_vertices"], [mesh]),
   ("TrimCurve", [curve, selection, float "start", float "end", float "start", float "end"],
      [curve]),
   ("UVPackIslands", [vec3 "uv", selection, float "margin", bool "rotate"], [vec3 "uv"]),
   ("UVUnwrap", [selection, bool "seam", float "margin", bool "fill_holes"], [vec3 "uv"]),
   ("VertexOfCorner", [int "corner_index"], [int "vertex_index"]),
   ("Viewer", [geometries, float "value", vec3 "value", rgba "value", int "value", bool "value"],
      []),
   ("VolumeCube", [float "density", float "background", vec3 "min", vec3 "max", int "resolution_x",
      int "resolution_y", int "resolution_z"], [geometry "volume"]),
   ("VolumeToMesh", [geometry "volume", float "voxel_size", float "voxel_amount", float "threshold",
      float "adaptivity"], [mesh])]

def geometryShapes : List (String × NodeShape) :=
  geometryShapesAccumulateToImage ++ geometryShapesInputToReverse ++ geometryShapesRotateToVolume

end NodeFormula.Catalog
